import Mathlib.Data.Finset.Max
import SourcePrint.Language.Table
import SourcePrint.Proofs.Casing
import SourcePrint.Proofs.Margins

namespace SourcePrint

namespace Text

theorem any_of_gapKind {first second : Option Char}
    (h : first.map gapKind = second.map gapKind) :
    first.any isBlank = second.any isBlank ∧ first.any (· == '.') = second.any (· == '.') := by
  constructor
  · simpa [Option.any_map, gapKind, Function.comp_def] using congrArg (Option.any Prod.fst) h
  · simpa [Option.any_map, gapKind, Function.comp_def] using congrArg (Option.any Prod.snd) h

theorem any_head?_lowercase (cs : List Char) :
    (lowercase cs).head?.any isBlank = cs.head?.any isBlank ∧
      (lowercase cs).head?.any (· == '.') = cs.head?.any (· == '.') :=
  any_of_gapKind (gapKind_head?_lowercaseAfter [] cs)

theorem any_getLast?_lowercase (cs : List Char) :
    (lowercase cs).getLast?.any isBlank = cs.getLast?.any isBlank :=
  (any_of_gapKind (gapKind_getLast?_lowercaseAfter [] cs)).1

end Text

namespace Extension

/-- A blank stands right behind the leading dots. Blanks are taken off before the dots are, so this
one is stored. -/
def keepsBlank (extension : String) : Bool :=
  ((Text.trim extension.toList).dropWhile (· == '.')).head?.any Text.isBlank

def beginsBlank (key : String) : Bool := key.toList.head?.any Text.isBlank

/-- How extensions are stored, but for a blank in front. -/
structure IsNormal (key : String) : Prop where
  lower : ∀ c ∈ key.toList, Text.IsLower c
  undotted : key.toList.head?.any (· == '.') = false
  unpadded : key.toList.getLast?.any Text.isBlank = false

theorem isNormal_normalizeExtension (extension : String) :
    IsNormal (normalizeExtension extension) := by
  rw [normalizeExtension]
  constructor
  · intro c hc
    rw [String.toList_ofList] at hc
    exact Text.isLower_of_mem_lowercaseAfter hc
  · rw [String.toList_ofList, (Text.any_head?_lowercase _).2, any_head?_dropWhile]
  · rw [String.toList_ofList, Text.any_getLast?_lowercase]
    have hlast := Text.any_getLast?_trim extension.toList
    rw [← List.takeWhile_append_dropWhile (p := (· == '.')) (l := Text.trim extension.toList),
      List.getLast?_append] at hlast
    cases hrest : ((Text.trim extension.toList).dropWhile (· == '.')).getLast? with
    | none => rfl
    | some c => simpa [hrest] using hlast

theorem beginsBlank_normalizeExtension (extension : String) :
    beginsBlank (normalizeExtension extension) = keepsBlank extension := by
  rw [beginsBlank, normalizeExtension, String.toList_ofList, (Text.any_head?_lowercase _).1,
    keepsBlank]

variable {key : String}

theorem normalizeExtension_eq_self (h : IsNormal key) (hblank : beginsBlank key = false) :
    normalizeExtension key = key := by
  rw [normalizeExtension, Text.trim_eq_self_of_ends hblank h.unpadded,
    dropWhile_eq_self h.undotted, Text.lowercase, Text.lowercaseAfter_eq_self h.lower,
    String.ofList_toList]

/-- An extension that is stored with a blank in front gets shorter when it is stored again. -/
theorem length_normalizeExtension_lt (h : IsNormal key) (hblank : beginsBlank key = true) :
    (normalizeExtension key).length < key.length := by
  obtain ⟨c, rest, hkey, hc⟩ : ∃ c rest, key.toList = c :: rest ∧ Text.isBlank c = true := by
    rw [beginsBlank] at hblank
    cases hkey : key.toList with
    | nil => simp [hkey] at hblank
    | cons c rest => exact ⟨c, rest, rfl, by simpa [hkey] using hblank⟩
  have htrim : Text.trim key.toList = Text.trim rest := by
    rw [hkey, Text.trim, Text.trimStart, List.dropWhile_cons_of_pos hc, Text.trim, Text.trimStart]
  have hsub : ((Text.trim rest).dropWhile (· == '.')).Sublist rest :=
    (List.dropWhile_sublist _).trans (Text.trim_sublist rest)
  have hlower : ∀ c ∈ (Text.trim rest).dropWhile (· == '.'), Text.IsLower c := fun c hc =>
    h.lower c (by simp [hkey, hsub.subset hc])
  calc (normalizeExtension key).length
      = ((Text.trim rest).dropWhile (· == '.')).length := by
        rw [normalizeExtension, htrim, Text.lowercase, Text.lowercaseAfter_eq_self hlower,
          String.length_ofList]
    _ ≤ rest.length := hsub.length_le
    _ < key.length := by rw [← String.length_toList, hkey, List.length_cons]; omega

end Extension

namespace ExtensionMap

variable {map : ExtensionMap}

theorem lookup_cons_eq (extension : String) (entry : String × Language)
    (entries : List (String × Language)) :
    (entry :: entries).lookup extension =
      if extension = entry.1 then some entry.2 else entries.lookup extension := by
  rw [List.lookup_cons]
  by_cases h : extension = entry.1
  · rw [beq_iff_eq.mpr h, if_pos h]
  · rw [beq_eq_false_iff_ne.mpr h, if_neg h]

theorem lookup_insertSorted (key : String) (language : Language)
    (entries : List (String × Language)) (extension : String) :
    (insertSorted key language entries).lookup extension =
      if extension = key then some language else entries.lookup extension := by
  induction entries with
  | nil => rw [insertSorted, lookup_cons_eq]
  | cons entry rest ih =>
    rw [insertSorted]
    split
    · rw [lookup_cons_eq]
    · split
      · rename_i hless
        rw [lookup_cons_eq, ih, lookup_cons_eq]
        by_cases h : extension = key
        · rw [if_neg (h ▸ (String.ne_of_lt hless).symm), if_pos h, if_pos h]
        · rw [if_neg h, if_neg h]
      · rename_i hnotless hnotgreater
        have heq : key = entry.1 :=
          String.le_antisymm (String.not_lt.mp hnotgreater) (String.not_lt.mp hnotless)
        rw [lookup_cons_eq, lookup_cons_eq, ← heq]
        by_cases h : extension = key
        · rw [if_pos h, if_pos h]
        · rw [if_neg h, if_neg h, if_neg h]

theorem find?_put (map : ExtensionMap) (key : String) (language : Language) (extension : String) :
    (map.put key language).find? extension =
      if extension = key then some language else map.find? extension :=
  lookup_insertSorted key language map.entries extension

theorem nodup_extensions (map : ExtensionMap) : map.extensions.Nodup := by
  rw [extensions, List.Nodup, List.pairwise_map]
  exact map.sorted.imp String.ne_of_lt

theorem find?_eq_some_iff {extension : String} {language : Language} :
    map.find? extension = some language ↔ (extension, language) ∈ map.entries := by
  rw [find?, List.lookup_eq_some_iff]
  constructor
  · rintro ⟨before, after, h, -⟩
    simp [h]
  · intro h
    obtain ⟨before, after, hentries⟩ := List.append_of_mem h
    refine ⟨before, after, hentries, fun entry hentry => ?_⟩
    have hsorted := map.sorted
    rw [hentries, List.pairwise_append] at hsorted
    have hless := hsorted.2.2 entry hentry (extension, language) (by simp)
    simpa using (String.ne_of_lt hless).symm

theorem mem_extensions_iff {extension : String} :
    extension ∈ map.extensions ↔ ∃ language, map.find? extension = some language := by
  simp only [find?_eq_some_iff, extensions, List.mem_map, Prod.exists, exists_eq_right,
    exists_and_right]

theorem find?_eq_none_iff {extension : String} :
    map.find? extension = none ↔ extension ∉ map.extensions := by
  rw [mem_extensions_iff, ← Option.isSome_iff_exists, Option.not_isSome_iff_eq_none]

theorem ext_find? {map' : ExtensionMap}
    (h : ∀ extension, map.find? extension = map'.find? extension) : map = map' := by
  have hmem (entry : String × Language) : entry ∈ map.entries ↔ entry ∈ map'.entries := by
    rw [← find?_eq_some_iff, h, find?_eq_some_iff]
  have hperm : map.entries.Perm map'.entries :=
    (List.perm_ext_iff_of_nodup (map.nodup_extensions.of_map _)
      (map'.nodup_extensions.of_map _)).mpr hmem
  have hentries : map.entries = map'.entries :=
    hperm.eq_of_pairwise (fun a b _ _ hab hba => absurd hba (String.lt_asymm hab)) map.sorted
      map'.sorted
  cases map
  cases map'
  simpa using hentries

theorem perm_insertSorted {key : String} {entries : List (String × Language)}
    (h : key ∉ entries.map (·.1)) (language : Language) :
    (insertSorted key language entries).Perm ((key, language) :: entries) := by
  induction entries with
  | nil => exact .refl _
  | cons entry rest ih =>
    rw [List.map_cons, List.mem_cons, not_or] at h
    rw [insertSorted]
    split
    · exact .refl _
    · split
      · exact ((ih h.2).cons entry).trans (.swap _ _ _)
      · rename_i hless hgreater
        exact absurd (String.le_antisymm (String.not_lt.mp hgreater) (String.not_lt.mp hless)) h.1

theorem perm_foldl_put {entries : List (String × Language)}
    (h : ((map.entries ++ entries).map (·.1)).Nodup) :
    (entries.foldl (fun map entry => map.put entry.1 entry.2) map).entries.Perm
      (map.entries ++ entries) := by
  induction entries generalizing map with
  | nil => simp
  | cons entry entries ih =>
    have hfresh : entry.1 ∉ map.entries.map (·.1) := by
      rw [List.map_append, List.nodup_append] at h
      exact fun hmem => h.2.2 _ hmem _ (by simp) rfl
    have hput : ((map.put entry.1 entry.2).entries ++ entries).Perm
        (map.entries ++ entry :: entries) :=
      ((perm_insertSorted hfresh entry.2).append_right entries).trans List.perm_middle.symm
    exact (ih ((hput.map _).nodup_iff.mpr h)).trans hput

theorem perm_ofList {entries : List (String × Language)} (h : (entries.map (·.1)).Nodup) :
    (ofList entries).entries.Perm entries :=
  perm_foldl_put h

end ExtensionMap

/-- The text is what stands behind the last dot of a file name. -/
def BehindDot (extension filename : String) : Prop :=
  '.' ∉ extension.toList ∧ ∃ stem, filename = stem ++ "." ++ extension

theorem extensionOf?_eq_none_iff {filename : String} :
    extensionOf? filename = none ↔ '.' ∉ filename.toList := by
  simp [extensionOf?]

theorem BehindDot.extensionOf? {extension filename : String} (h : BehindDot extension filename) :
    extensionOf? filename = some extension := by
  obtain ⟨hdot, stem, rfl⟩ := h
  have hundotted : ∀ c ∈ extension.toList.reverse, (c != '.') = true := by
    intro c hc
    exact bne_iff_ne.mpr fun heq => hdot (heq ▸ List.mem_reverse.mp hc)
  have hreverse : (stem ++ "." ++ extension).toList.reverse =
      extension.toList.reverse ++ '.' :: stem.toList.reverse := by
    simp
  rw [SourcePrint.extensionOf?, if_pos (by simp), hreverse,
    List.takeWhile_append_of_pos hundotted, List.takeWhile_cons_of_neg (by decide),
    List.append_nil, List.reverse_reverse, String.ofList_toList]

theorem exists_behindDot {filename : String} (h : '.' ∈ filename.toList) :
    ∃ extension, BehindDot extension filename := by
  obtain ⟨extension, stem, hsplit, hdot⟩ := List.eq_append_cons_of_mem (List.mem_reverse.mpr h)
  refine ⟨String.ofList extension.reverse, by simpa using hdot, String.ofList stem.reverse, ?_⟩
  apply String.toList_injective
  rw [← List.reverse_reverse filename.toList, hsplit]
  simp

/-- The extension in lower case and otherwise as it stands. -/
def Extension.lowered (extension : String) : String :=
  String.ofList (Text.lowercase extension.toList)

namespace LanguageTable

variable {table : LanguageTable}

theorem ext_find? {other : LanguageTable}
    (h : ∀ extension, table.find? extension = other.find? extension) : table = other := by
  cases table
  cases other
  exact congrArg LanguageTable.mk (ExtensionMap.ext_find? h)

theorem find?_insert (table : LanguageTable) (extension : String) (language : Language)
    (key : String) :
    (table.insert extension language).find? key =
      if key = normalizeExtension extension then some language else table.find? key :=
  table.find?_put (normalizeExtension extension) language key

theorem insert_comm {first second : String × Language}
    (h : normalizeExtension first.1 ≠ normalizeExtension second.1) (table : LanguageTable) :
    (table.insert first.1 first.2).insert second.1 second.2 =
      (table.insert second.1 second.2).insert first.1 first.2 := by
  refine ext_find? fun key => ?_
  simp only [find?_insert]
  by_cases hfirst : key = normalizeExtension first.1
  · rw [if_pos hfirst, if_pos hfirst, if_neg (hfirst ▸ h)]
  · rw [if_neg hfirst, if_neg hfirst]

/-- Extensions that are stored apart may be inserted in any order. -/
theorem insertAll_perm {entries other : List (String × Language)} (h : entries.Perm other)
    (hapart : (entries.map fun entry => normalizeExtension entry.1).Nodup)
    (table : LanguageTable) : table.insertAll entries = table.insertAll other := by
  refine h.foldl_eq' (fun first hfirst second hsecond table => ?_) table
  by_cases hsame : normalizeExtension first.1 = normalizeExtension second.1
  · rw [List.inj_on_of_nodup_map hapart hfirst hsecond hsame]
  · exact insert_comm hsame table

/-- The last entry that is stored under a key counts. -/
theorem find?_insertAll (table : LanguageTable) (entries : List (String × Language))
    (key : String) :
    (table.insertAll entries).find? key =
      ((entries.reverse.find? fun entry => normalizeExtension entry.1 == key).map (·.2)).or
        (table.find? key) := by
  induction entries generalizing table with
  | nil => simp [insertAll]
  | cons entry entries ih =>
    have hstep : table.insertAll (entry :: entries) =
        (table.insert entry.1 entry.2).insertAll entries := rfl
    rw [hstep, ih, find?_insert, List.reverse_cons, List.find?_append]
    cases entries.reverse.find? fun entry => normalizeExtension entry.1 == key with
    | some found => simp only [Option.some_or, Option.map_some]
    | none =>
      by_cases h : normalizeExtension entry.1 = key
      · simp [h]
      · simp [h, Ne.symm h]

theorem mem_extensions_insertAll {entries : List (String × Language)} {key : String} :
    key ∈ (table.insertAll entries).extensions ↔
      key ∈ table.extensions ∨ ∃ entry ∈ entries, normalizeExtension entry.1 = key := by
  rw [ExtensionMap.mem_extensions_iff, ExtensionMap.mem_extensions_iff, find?_insertAll]
  cases hfind : entries.reverse.find? fun entry => normalizeExtension entry.1 == key with
  | some found =>
    have hkey := List.find?_some hfind
    have hmem := List.mem_of_find?_eq_some hfind
    simp only [Option.map_some, Option.some_or, Option.some.injEq, exists_eq', true_iff]
    exact .inr ⟨found, List.mem_reverse.mp hmem, beq_iff_eq.mp hkey⟩
  | none =>
    have hnone := List.find?_eq_none.mp hfind
    simp only [Option.map_none, Option.none_or, iff_self_or]
    rintro ⟨entry, hentry, hkey⟩
    exact absurd (beq_iff_eq.mpr hkey) (hnone entry (List.mem_reverse.mpr hentry))

/-- Every stored extension is a normalized one. -/
def Stored (table : LanguageTable) : Prop :=
  ∀ key ∈ table.extensions, ∃ extension, key = normalizeExtension extension

theorem stored_empty : Stored empty := by
  intro key hkey
  cases hkey

theorem Stored.insertAll (h : table.Stored) (entries : List (String × Language)) :
    (table.insertAll entries).Stored := by
  intro key hkey
  rcases mem_extensions_insertAll.mp hkey with hkey | ⟨entry, -, rfl⟩
  · exact h key hkey
  · exact ⟨entry.1, rfl⟩

theorem Stored.isNormal (h : table.Stored) {key : String} (hkey : key ∈ table.extensions) :
    Extension.IsNormal key := by
  obtain ⟨extension, rfl⟩ := h key hkey
  exact Extension.isNormal_normalizeExtension extension

variable {entries : List (String × Language)}

theorem mem_extensions_of_perm (h : entries.Perm table.entries) {entry : String × Language}
    (hentry : entry ∈ entries) : entry.1 ∈ table.extensions :=
  List.mem_map.mpr ⟨entry, h.mem_iff.mp hentry, rfl⟩

/-- A table is the same when its entries are inserted once more, in whatever order, if no stored
extension begins with a blank. -/
theorem Stored.insertAll_eq (h : table.Stored)
    (hblank : ∀ key ∈ table.extensions, Extension.beginsBlank key = false)
    (hentries : entries.Perm table.entries) : empty.insertAll entries = table := by
  have hfixed : ∀ entry ∈ entries, normalizeExtension entry.1 = entry.1 := by
    intro entry hentry
    have hkey := mem_extensions_of_perm hentries hentry
    exact Extension.normalizeExtension_eq_self (h.isNormal hkey) (hblank _ hkey)
  have hfind (key : String) : (empty.insertAll entries).find? key = table.find? key := by
    rw [find?_insertAll]
    cases hfound : entries.reverse.find? fun entry => normalizeExtension entry.1 == key with
    | some found =>
      have hmem := List.mem_reverse.mp (List.mem_of_find?_eq_some hfound)
      have hnormalized := List.find?_some hfound
      have hkey : found.1 = key := (hfixed found hmem).symm.trans (beq_iff_eq.mp hnormalized)
      have hentry : (key, found.2) ∈ table.entries := by
        rw [← hkey]
        exact hentries.mem_iff.mp hmem
      exact (ExtensionMap.find?_eq_some_iff.mpr hentry).symm
    | none =>
      have hnone := List.find?_eq_none.mp hfound
      have habsent : key ∉ table.extensions := by
        intro hkey
        obtain ⟨entry, hentry, rfl⟩ := List.mem_map.mp hkey
        have hmem := hentries.mem_iff.mpr hentry
        exact hnone entry (List.mem_reverse.mpr hmem) (beq_iff_eq.mpr (hfixed entry hmem))
      exact (ExtensionMap.find?_eq_none_iff.mpr habsent).symm
  exact ext_find? hfind

/-- Of the extensions that begin with a blank, the longest is lost when all are inserted again. -/
theorem Stored.insertAll_ne (h : table.Stored) {key : String} (hkey : key ∈ table.extensions)
    (hblank : Extension.beginsBlank key = true) (hentries : entries.Perm table.entries) :
    empty.insertAll entries ≠ table := by
  intro heq
  obtain ⟨longest, hlongest, hmax⟩ :=
    Finset.exists_max_image (table.extensions.filter Extension.beginsBlank).toFinset String.length
      ⟨key, by simp [hkey, hblank]⟩
  simp only [List.mem_toFinset, List.mem_filter] at hlongest hmax
  have hagain : longest ∈ (empty.insertAll entries).extensions := by
    rw [heq]
    exact hlongest.1
  rcases mem_extensions_insertAll.mp hagain with hempty | ⟨entry, hentry, hnormalized⟩
  · cases hempty
  · have hstored := mem_extensions_of_perm hentries hentry
    have hnormal := h.isNormal hstored
    by_cases hbegins : Extension.beginsBlank entry.1 = true
    · have hshorter := Extension.length_normalizeExtension_lt hnormal hbegins
      have hlonger := hmax entry.1 ⟨hstored, hbegins⟩
      rw [hnormalized] at hshorter
      omega
    · rw [Bool.not_eq_true] at hbegins
      rw [Extension.normalizeExtension_eq_self hnormal hbegins] at hnormalized
      rw [hnormalized, hlongest.2] at hbegins
      cases hbegins

/-- Inserting the entries of a table once more gives the same table exactly if no stored extension
begins with a blank. -/
theorem Stored.insertAll_eq_iff (h : table.Stored) (hentries : entries.Perm table.entries) :
    empty.insertAll entries = table ↔
      ∀ key ∈ table.extensions, Extension.beginsBlank key = false := by
  refine ⟨fun heq key hkey => ?_, fun hblank => h.insertAll_eq hblank hentries⟩
  rw [Bool.eq_false_iff]
  exact fun hblank => h.insertAll_ne hkey hblank hentries heq

variable {extension filename : String}

theorem resolve_of_undotted (table : LanguageTable) (h : '.' ∉ filename.toList) :
    table.resolve filename = .error (.unknownLanguage filename) := by
  rw [resolve, extensionOf?_eq_none_iff.mpr h]

theorem resolve_of_behindDot (h : BehindDot extension filename) (table : LanguageTable) :
    (∃ language, table.find? (Extension.lowered extension) = some language ∧
      table.resolve filename = .ok language) ∨
    table.find? (Extension.lowered extension) = none ∧
      table.resolve filename = .error (.unsupportedLanguage (Extension.lowered extension)) := by
  unfold resolve Extension.lowered
  rw [h.extensionOf?]
  simp only
  cases table.find? (String.ofList (Text.lowercase extension.toList)) with
  | some language => exact .inl ⟨language, rfl, rfl⟩
  | none => exact .inr ⟨rfl, rfl⟩

/-- A file name without a dot has no language, and any other error names the extension. -/
theorem resolve_cases (table : LanguageTable) (filename : String) :
    ('.' ∉ filename.toList ∧ table.resolve filename = .error (.unknownLanguage filename)) ∨
    (∃ extension, table.resolve filename = .error (.unsupportedLanguage extension)) ∨
    ∃ language, table.resolve filename = .ok language := by
  by_cases h : '.' ∈ filename.toList
  · obtain ⟨extension, hbehind⟩ := exists_behindDot h
    obtain ⟨language, -, hresolve⟩ | ⟨-, hresolve⟩ := resolve_of_behindDot hbehind table
    · exact .inr (.inr ⟨language, hresolve⟩)
    · exact .inr (.inl ⟨_, hresolve⟩)
  · exact .inl ⟨h, resolve_of_undotted table h⟩

theorem resolve_trailing_dot (table : LanguageTable) (stem : String) :
    table.resolve (stem ++ ".") =
      match table.find? "" with
      | some language => .ok language
      | none => .error (.unsupportedLanguage "") := by
  have hbehind : BehindDot "" (stem ++ ".") := ⟨List.not_mem_nil, stem, String.append_empty.symm⟩
  have hlowered : Extension.lowered "" = "" := rfl
  obtain ⟨language, hfind, hresolve⟩ | ⟨hfind, hresolve⟩ := resolve_of_behindDot hbehind table
  all_goals
    rw [hlowered] at hfind
    rw [hresolve, hfind]
  rw [hlowered]

end LanguageTable

end SourcePrint
