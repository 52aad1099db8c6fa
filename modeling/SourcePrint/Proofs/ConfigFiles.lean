import SourcePrint.ConfigFile
import SourcePrint.Proofs.Extensions
import SourcePrint.Proofs.Outcomes

namespace SourcePrint

namespace Extension

variable {key : String}

/-- Dots with blanks in front of them, and nothing else but blanks behind. -/
def DotsBehindBlanks (key : String) : Prop :=
  ∃ blanks dots padding : List Char, key.toList = blanks ++ dots ++ padding ∧
    blanks ≠ [] ∧ blanks.all Text.isBlank = true ∧ dots ≠ [] ∧ dots.all (· == '.') = true ∧
    padding.all Text.isBlank = true

theorem normalizeExtension_eq_empty_iff :
    normalizeExtension key = "" ↔ (Text.trim key.toList).all (· == '.') = true := by
  rw [normalizeExtension, ← String.ofList_nil, String.ofList_inj, List.all_eq_true,
    ← List.dropWhile_eq_nil_iff]
  refine ⟨Text.eq_nil_of_lowercaseAfter, fun h => ?_⟩
  rw [h]
  rfl

theorem trim_dots {dots : List Char} (h : dots.all (· == '.') = true) : Text.trim dots = dots := by
  apply Text.trim_eq_self
  intro c hc
  have hdot : c = '.' := by simpa using List.all_eq_true.mp h c hc
  rw [hdot]
  rfl

/-- Blanks are taken off at both ends before the dots are. -/
theorem normalizeExtension_eq_empty_iff_append :
    normalizeExtension key = "" ↔
      ∃ blanks dots padding : List Char, key.toList = blanks ++ dots ++ padding ∧
        blanks.all Text.isBlank = true ∧ dots.all (· == '.') = true ∧
        padding.all Text.isBlank = true := by
  rw [normalizeExtension_eq_empty_iff]
  constructor
  · intro h
    obtain ⟨before, after, hkey, hbefore, hafter⟩ := Text.exists_trim key.toList
    exact ⟨before, _, after, hkey, hbefore, h, hafter⟩
  · rintro ⟨blanks, dots, padding, hkey, hblanks, hdots, hpadding⟩
    rw [hkey, Text.trim_padded hblanks hpadding, trim_dots hdots]
    exact hdots

end Extension

namespace LanguageSection

variable {languages : LanguageSection} {key : String}

theorem isEmptyExtension_of_dots {dots padding : List Char} (hkey : key.toList = dots ++ padding)
    (hdots : dots.all (· == '.') = true) (hpadding : padding.all Text.isBlank = true) :
    isEmptyExtension key = true := by
  rw [isEmptyExtension, hkey, List.dropWhile_append_of_pos (List.all_eq_true.mp hdots)]
  exact List.all_eq_true.mpr fun c hc =>
    List.all_eq_true.mp hpadding c ((List.dropWhile_sublist _).subset hc)

/-- The check takes dots off before blanks and a table takes blanks off before dots. They differ on
dots that have blanks in front of them, and on nothing else. -/
theorem stored_empty_iff (h : isEmptyExtension key = false) :
    normalizeExtension key = "" ↔ Extension.DotsBehindBlanks key := by
  rw [Extension.normalizeExtension_eq_empty_iff_append]
  constructor
  · rintro ⟨blanks, dots, padding, hkey, hblanks, hdots, hpadding⟩
    refine ⟨blanks, dots, padding, hkey, ?_, hblanks, ?_, hdots, hpadding⟩
    · rintro rfl
      rw [isEmptyExtension_of_dots hkey hdots hpadding] at h
      cases h
    · rintro rfl
      have hblank : (blanks ++ padding).all Text.isBlank = true := by simp_all
      rw [List.append_nil, ← List.nil_append (blanks ++ padding)] at hkey
      rw [isEmptyExtension_of_dots hkey rfl hblank] at h
      cases h
  · rintro ⟨blanks, dots, padding, hkey, -, hblanks, -, hdots, hpadding⟩
    exact ⟨blanks, dots, padding, hkey, hblanks, hdots, hpadding⟩

theorem fault?_eq_none_iff :
    languages.fault? = none ↔
      (∀ key ∈ languages.extensions.extensions, isEmptyExtension key = false) ∧
        (languages.replaceDefaults = true → languages.extensions.entries ≠ []) := by
  unfold fault?
  cases hfind : languages.extensions.extensions.find? isEmptyExtension with
  | some key =>
    have hempty := List.find?_some hfind
    have hmem := List.mem_of_find?_eq_some hfind
    simp only [reduceCtorEq, false_iff, not_and]
    intro hnamed
    rw [hnamed key hmem] at hempty
    cases hempty
  | none =>
    have hnamed : ∀ key ∈ languages.extensions.extensions, isEmptyExtension key = false := by
      simpa using hfind
    rw [and_iff_right hnamed]
    simp

theorem find?_standard_empty : LanguageTable.standard.find? "" = none := by
  decide +kernel

theorem find?_toTable_empty (languages : LanguageSection) :
    languages.toTable.find? "" =
      (languages.extensions.entries.reverse.find? fun entry =>
        normalizeExtension entry.1 == "").map (·.2) := by
  have hstart : (if languages.replaceDefaults then LanguageTable.empty
      else LanguageTable.standard).find? "" = none := by
    split
    · rfl
    · exact find?_standard_empty
  rw [toTable, LanguageTable.find?_insertAll, hstart, Option.or_none]

theorem exists_of_find?_toTable {language : Language}
    (h : ∀ key ∈ languages.extensions.extensions, isEmptyExtension key = false)
    (hfind : languages.toTable.find? "" = some language) :
    ∃ entry ∈ languages.extensions.entries,
      Extension.DotsBehindBlanks entry.1 ∧ entry.2 = language := by
  rw [find?_toTable_empty] at hfind
  obtain ⟨entry, hentry, rfl⟩ := Option.map_eq_some_iff.mp hfind
  have hmem := List.mem_reverse.mp (List.mem_of_find?_eq_some hentry)
  have hempty := List.find?_some hentry
  have hkey : entry.1 ∈ languages.extensions.extensions := List.mem_map_of_mem hmem
  have hdots := (stored_empty_iff (h _ hkey)).mp (beq_iff_eq.mp hempty)
  exact ⟨entry, hmem, hdots, rfl⟩

theorem mem_toTable_iff
    (h : ∀ key ∈ languages.extensions.extensions, isEmptyExtension key = false) :
    "" ∈ languages.toTable.extensions ↔
      ∃ key ∈ languages.extensions.extensions, Extension.DotsBehindBlanks key := by
  constructor
  · intro hmem
    obtain ⟨language, hfind⟩ := ExtensionMap.mem_extensions_iff.mp hmem
    obtain ⟨entry, hentry, hdots, -⟩ := exists_of_find?_toTable h hfind
    exact ⟨entry.1, List.mem_map_of_mem hentry, hdots⟩
  · rintro ⟨key, hkey, hdots⟩
    have hempty := (stored_empty_iff (h _ hkey)).mpr hdots
    obtain ⟨entry, hentry, rfl⟩ := List.mem_map.mp hkey
    exact LanguageTable.mem_extensions_insertAll.mpr (.inr ⟨entry, hentry, hempty⟩)

end LanguageSection

theorem CanonicalSection.fault?_eq_none_iff {canonical : CanonicalSection} :
    canonical.fault? = none ↔ canonical.toConfig.fault? = none := by
  unfold CanonicalSection.fault? CanonicalConfig.fault?
  have hversion : canonical.toConfig.version = canonical.version := rfl
  rw [hversion]
  split
  · simp
  · exact Option.map_eq_none_iff

namespace LineSection

variable {lines : LineSection}

theorem fault?_eq_none_iff :
    lines.fault? = none ↔
      (lines.enabled = true → lines.breakSymbols ≠ []) ∧
        ∀ symbol ∈ lines.breakSymbols, Text.isBlankText symbol = false := by
  unfold fault? LogicalLineConfig.fault?
  by_cases h : lines.enabled = true ∧ lines.breakSymbols = []
  · simp [h]
  · have hsymbols : lines.enabled = true → lines.breakSymbols ≠ [] := fun henabled hnone =>
      h ⟨henabled, hnone⟩
    rw [and_iff_right hsymbols]
    simp [h]

theorem fault?_toConfig? (h : ∀ symbol ∈ lines.breakSymbols, Text.isBlankText symbol = false) :
    lines.toConfig?.bind (·.fault?) = none := by
  unfold toConfig?
  split
  · simpa [LogicalLineConfig.fault?] using h
  · rfl

end LineSection

namespace ConfigFile

variable {file : ConfigFile}

/-- What a file is checked for: that the settings it stands for can be used, and what can be seen in
the file alone. -/
structure Accepted (file : ConfigFile) : Prop where
  version : file.version = "1.0" ∨ file.version = "1"
  usable : file.toConfig.fault? = none
  named : ∀ key ∈ file.languages.extensions.extensions,
    LanguageSection.isEmptyExtension key = false
  stocked : file.languages.replaceDefaults = true → file.languages.extensions.entries ≠ []
  breaks : file.logicalLines.enabled = true → file.logicalLines.breakSymbols ≠ []
  /-- This is asked for even where no logical lines are wanted. -/
  visible : ∀ symbol ∈ file.logicalLines.breakSymbols, Text.isBlankText symbol = false

theorem fault?_eq_none_iff :
    file.fault? = none ↔
      file.canonical.fault? = none ∧ file.languages.fault? = none ∧
        file.logicalLines.fault? = none ∧ file.maxSourceBytes ≠ 0 := by
  unfold fault?
  cases file.canonical.fault? with
  | some fault => simp
  | none =>
    cases file.languages.fault? with
    | some fault => simp
    | none => cases file.logicalLines.fault? <;> simp

theorem fault?_toConfig_eq_none_iff :
    file.toConfig.fault? = none ↔
      file.canonical.toConfig.fault? = none ∧
        file.logicalLines.toConfig?.bind (·.fault?) = none ∧ file.maxSourceBytes ≠ 0 := by
  unfold Config.fault? toConfig
  cases file.canonical.toConfig.fault? with
  | some fault => simp
  | none => cases file.logicalLines.toConfig?.bind (·.fault?) <;> simp

/-- The two checks agree section by section. -/
theorem validate_eq_ok_iff : file.validate = .ok () ↔ file.Accepted := by
  have hvalidate : file.validate = .ok () ↔
      (file.version = "1.0" ∨ file.version = "1") ∧ file.fault? = none := by
    unfold validate
    split
    · rename_i hversion
      cases file.fault? <;> simp [hversion]
    · rename_i hversion
      simp [hversion]
  rw [hvalidate, fault?_eq_none_iff, CanonicalSection.fault?_eq_none_iff,
    LanguageSection.fault?_eq_none_iff, LineSection.fault?_eq_none_iff]
  constructor
  · rintro ⟨hversion, hcanonical, ⟨hnamed, hstocked⟩, ⟨hbreaks, hvisible⟩, hlimit⟩
    have hlines := LineSection.fault?_toConfig? hvisible
    exact ⟨hversion, fault?_toConfig_eq_none_iff.mpr ⟨hcanonical, hlines, hlimit⟩, hnamed, hstocked,
      hbreaks, hvisible⟩
  · intro h
    obtain ⟨hcanonical, -, hlimit⟩ := fault?_toConfig_eq_none_iff.mp h.usable
    exact ⟨h.version, hcanonical, ⟨h.named, h.stocked⟩, ⟨h.breaks, h.visible⟩, hlimit⟩

/-- An empty extension gets past the check exactly when the file spells it as dots that have blanks
in front of them. File names that end in a dot then have the language of such an entry, and else
they have none. -/
theorem trailing_dot_outcomes (h : file.validate = .ok ()) :
    ("" ∈ file.toConfig.languages.extensions ↔
      ∃ key ∈ file.languages.extensions.extensions, Extension.DotsBehindBlanks key) ∧
    ("" ∉ file.toConfig.languages.extensions → ∀ stem,
      file.toConfig.languages.resolve (stem ++ ".") = .error (.unsupportedLanguage "")) ∧
    ("" ∈ file.toConfig.languages.extensions → ∃ entry ∈ file.languages.extensions.entries,
      Extension.DotsBehindBlanks entry.1 ∧
        ∀ stem, file.toConfig.languages.resolve (stem ++ ".") = .ok entry.2) := by
  have hnamed := (validate_eq_ok_iff.mp h).named
  refine ⟨LanguageSection.mem_toTable_iff hnamed, fun habsent stem => ?_, fun hpresent => ?_⟩
  · rw [LanguageTable.resolve_trailing_dot, ExtensionMap.find?_eq_none_iff.mpr habsent]
  · obtain ⟨language, hfind⟩ := ExtensionMap.mem_extensions_iff.mp hpresent
    obtain ⟨entry, hentry, hdots, rfl⟩ := LanguageSection.exists_of_find?_toTable hnamed hfind
    refine ⟨entry, hentry, hdots, fun stem => ?_⟩
    rw [LanguageTable.resolve_trailing_dot, hfind]

theorem trailing_dot_outcomes_spellings :
    let file : ConfigFile :=
      { version := "1", languages := ⟨false, .ofList [(" ..HH ", .cpp), (". .", .c)]⟩ }
    file.validate = .ok () ∧ "" ∉ file.toConfig.languages.extensions ∧
      ∀ stem, file.toConfig.languages.resolve (stem ++ ".") =
        .error (.unsupportedLanguage "") := by
  intro file
  have haccepted : file.validate = .ok () := by decide +kernel
  have habsent : "" ∉ file.toConfig.languages.extensions := by decide +kernel
  exact ⟨haccepted, habsent, (trailing_dot_outcomes haccepted).2.1 habsent⟩

/-- A blank before the dot is enough. -/
theorem accepts_dot_behind_blank :
    let file : ConfigFile := { version := "1", languages := ⟨false, .ofList [(" .", .c)]⟩ }
    file.validate = .ok () ∧ "" ∈ file.toConfig.languages.extensions ∧
      file.toConfig.languages.resolve "a." = .ok .c := by
  decide +kernel

/-- A file that was accepted gives settings that can be used: nothing can be wrong then but the name
of a source and its size, and in all other cases there is a report. -/
theorem accepted_runs (h : file.validate = .ok ()) :
    file.toConfig.fault? = none ∧ ∀ filename text,
      ('.' ∉ filename.toList ∧
        Report.ofFile filename text file.toConfig =
          .error (.lexical (.unknownLanguage filename))) ∨
      (∃ extension,
        file.toConfig.languages.resolve filename = .error (.unsupportedLanguage extension) ∧
        Report.ofFile filename text file.toConfig =
          .error (.lexical (.unsupportedLanguage extension))) ∨
      (∃ language, file.toConfig.languages.resolve filename = .ok language) ∧
        (file.maxSourceBytes < text.utf8ByteSize ∧
          Report.ofFile filename text file.toConfig =
            .error (.sourceTooLarge filename text.utf8ByteSize file.maxSourceBytes) ∨
        text.utf8ByteSize ≤ file.maxSourceBytes ∧
          ∃ report, Report.ofFile filename text file.toConfig = .ok report) := by
  have husable := (validate_eq_ok_iff.mp h).usable
  refine ⟨husable, fun filename text => ?_⟩
  obtain ⟨error, hresolve, hfile⟩ | ⟨language, hresolve, hfile⟩ :=
    Report.ofFile_cases filename text file.toConfig
  · obtain ⟨hdot, hunknown⟩ | ⟨extension, hunsupported⟩ | ⟨language, hknown⟩ :=
      file.toConfig.languages.resolve_cases filename
    · cases hresolve.symm.trans hunknown
      exact .inl ⟨hdot, hfile⟩
    · cases hresolve.symm.trans hunsupported
      exact .inr (.inl ⟨extension, hunsupported, hfile⟩)
    · cases hresolve.symm.trans hknown
  · refine .inr (.inr ⟨⟨language, hresolve⟩, ?_⟩)
    obtain ⟨fault, hfirst, -⟩ | ⟨-, hlarge, hfile⟩ | ⟨-, hsmall, hfile⟩ := hfile
    · exact absurd (Config.fault?_eq_none_iff.mp husable) hfirst.not_valid
    · exact .inl ⟨hlarge, hfile⟩
    · exact .inr ⟨hsmall, hfile⟩

theorem accepted_runs_lines :
    let file : ConfigFile :=
      { version := "1", canonical := ⟨3, some ["u8"]⟩,
        languages := ⟨true, .ofList [(".HH", .cpp)]⟩, logicalLines := ⟨true, [";"]⟩,
        maxSourceBytes := 5 }
    file.validate = .ok () ∧ file.toConfig.fault? = none ∧
      ∃ report, Report.ofFile "a.hh" "u8 x;" file.toConfig = .ok report := by
  intro file
  have haccepted : file.validate = .ok () := by decide +kernel
  obtain ⟨husable, hruns⟩ := accepted_runs haccepted
  have hknown : file.toConfig.languages.resolve "a.hh" = .ok .cpp := by decide +kernel
  refine ⟨haccepted, husable, ?_⟩
  obtain ⟨hdot, -⟩ | ⟨extension, hunsupported, -⟩ | ⟨-, ⟨hlarge, -⟩ | ⟨-, hreport⟩⟩ :=
    hruns "a.hh" "u8 x;"
  · exact absurd (by decide) hdot
  · cases hknown.symm.trans hunsupported
  · exact absurd hlarge (by decide)
  · exact hreport

end ConfigFile

end SourcePrint
