import Mathlib.Data.Finset.Card
import SourcePrint.Proofs.Extensions

namespace SourcePrint

namespace LanguageTable

/-- The last insert that is stored under a key is one of the language. -/
def LastInsert (inserts : List (String × Language)) (key : String) (language : Language) : Prop :=
  ∃ before extension after, inserts = before ++ (extension, language) :: after ∧
    normalizeExtension extension = key ∧ ∀ later ∈ after, normalizeExtension later.1 ≠ key

variable {inserts : List (String × Language)} {table : LanguageTable} {key : String}
  {language : Language}

theorem find?_empty_insertAll (inserts : List (String × Language)) (key : String) :
    (empty.insertAll inserts).find? key =
      (inserts.reverse.find? fun entry => normalizeExtension entry.1 == key).map (·.2) :=
  (find?_insertAll empty inserts key).trans Option.or_none

theorem find?_eq_some_iff_lastInsert :
    (empty.insertAll inserts).find? key = some language ↔ LastInsert inserts key language := by
  rw [find?_empty_insertAll, Option.map_eq_some_iff]
  constructor
  · rintro ⟨⟨extension, _⟩, hfound, rfl⟩
    obtain ⟨hkey, after, before, hsplit, hafter⟩ := List.find?_eq_some_iff_append.mp hfound
    refine ⟨before.reverse, extension, after.reverse, ?_, beq_iff_eq.mp hkey, ?_⟩
    · rw [← List.reverse_reverse inserts, hsplit]
      simp
    · intro later hlater
      simpa using hafter later (List.mem_reverse.mp hlater)
  · rintro ⟨before, extension, after, rfl, hkey, hafter⟩
    refine ⟨(extension, language), List.find?_eq_some_iff_append.mpr ⟨beq_iff_eq.mpr hkey,
      after.reverse, before.reverse, by simp, ?_⟩, rfl⟩
    intro later hlater
    simpa using hafter later (List.mem_reverse.mp hlater)

theorem mem_extensions_empty_insertAll :
    key ∈ (empty.insertAll inserts).extensions ↔
      ∃ entry ∈ inserts, normalizeExtension entry.1 = key := by
  rw [mem_extensions_insertAll]
  exact or_iff_right List.not_mem_nil

theorem find?_eq_none_iff_inserts :
    (empty.insertAll inserts).find? key = none ↔
      ∀ entry ∈ inserts, normalizeExtension entry.1 ≠ key := by
  rw [ExtensionMap.find?_eq_none_iff, mem_extensions_empty_insertAll]
  simp

/-- The table holds one entry for each way of storing that occurs among the inserts. -/
theorem size_empty_insertAll (inserts : List (String × Language)) :
    (empty.insertAll inserts).size =
      (inserts.map fun entry => normalizeExtension entry.1).toFinset.card := by
  have hextensions : (empty.insertAll inserts).extensions.toFinset =
      (inserts.map fun entry => normalizeExtension entry.1).toFinset := by
    ext key
    rw [List.mem_toFinset, mem_extensions_empty_insertAll, List.mem_toFinset, List.mem_map]
  rw [← hextensions, List.toFinset_card_of_nodup (ExtensionMap.nodup_extensions _),
    ExtensionMap.extensions, List.length_map, ExtensionMap.size]

theorem sorted_extensions (table : LanguageTable) : table.extensions.Pairwise (· < ·) :=
  List.pairwise_map.mpr table.sorted

variable {extension filename : String}

theorem resolve_eq_ok_iff (h : BehindDot extension filename) :
    table.resolve filename = .ok language ↔
      table.find? (Extension.lowered extension) = some language := by
  obtain ⟨found, hfind, hresolve⟩ | ⟨hfind, hresolve⟩ := resolve_of_behindDot h table
  all_goals simp [hfind, hresolve]

theorem resolve_eq_unsupported_iff (h : BehindDot extension filename) :
    table.resolve filename = .error (.unsupportedLanguage (Extension.lowered extension)) ↔
      table.find? (Extension.lowered extension) = none := by
  obtain ⟨found, hfind, hresolve⟩ | ⟨hfind, hresolve⟩ := resolve_of_behindDot h table
  all_goals simp [hfind, hresolve]

theorem resolve_eq_unknown_iff :
    table.resolve filename = .error (.unknownLanguage filename) ↔ '.' ∉ filename.toList := by
  constructor
  · intro hunknown hdot
    obtain ⟨extension, hbehind⟩ := exists_behindDot hdot
    obtain ⟨_, -, hresolve⟩ | ⟨-, hresolve⟩ := resolve_of_behindDot hbehind table
    all_goals
      rw [hresolve] at hunknown
      cases hunknown
  · exact resolve_of_undotted table

/-- What tables are, whatever was inserted into them. An extension has the language of its last
insert, however it is spelled; there is one entry for each extension, and they are listed in the
order of their code points. A file name has an unknown language exactly if it has no dot; any other
one goes by the text behind its last dot alone, in lower case, and has the language stored under
that text or none. -/
theorem insertAll_laws (inserts : List (String × Language)) :
    let table := empty.insertAll inserts
    (∀ extension language, table.get? extension = some language ↔
      LastInsert inserts (normalizeExtension extension) language) ∧
    (∀ extension, table.get? extension = none ↔
      ∀ entry ∈ inserts, normalizeExtension entry.1 ≠ normalizeExtension extension) ∧
    table.size = (inserts.map fun entry => normalizeExtension entry.1).toFinset.card ∧
    (∀ key, key ∈ table.extensions ↔ ∃ entry ∈ inserts, normalizeExtension entry.1 = key) ∧
    table.extensions.Pairwise (· < ·) ∧
    (∀ filename : String, (table.resolve filename = .error (.unknownLanguage filename) ↔
        '.' ∉ filename.toList) ∧
      ('.' ∈ filename.toList → ∃ extension, BehindDot extension filename) ∧
      ∀ extension, BehindDot extension filename →
        (∀ language, table.resolve filename = .ok language ↔
          table.find? (Extension.lowered extension) = some language) ∧
        (table.resolve filename = .error (.unsupportedLanguage (Extension.lowered extension)) ↔
          table.find? (Extension.lowered extension) = none)) ∧
    ∀ (spelled : String) (language : Language) (stem extension : String),
      '.' ∉ extension.toList → Extension.lowered extension = normalizeExtension spelled →
      (table.insert spelled language).resolve (stem ++ "." ++ extension) = .ok language := by
  intro table
  refine ⟨fun _ _ => find?_eq_some_iff_lastInsert, fun _ => find?_eq_none_iff_inserts,
    size_empty_insertAll inserts, fun _ => mem_extensions_empty_insertAll, table.sorted_extensions,
    fun filename => ⟨resolve_eq_unknown_iff, exists_behindDot, fun extension hbehind =>
      ⟨fun _ => resolve_eq_ok_iff hbehind, resolve_eq_unsupported_iff hbehind⟩⟩, ?_⟩
  intro spelled language stem extension hdot hlowered
  rw [resolve_eq_ok_iff ⟨hdot, stem, rfl⟩, find?_insert, if_pos hlowered]

/-- Two spellings of one extension, of which the later one counts, letters outside ASCII, a final
sigma, and dots in front of the last one. -/
theorem insertAll_laws_spellings :
    let inserts : List (String × Language) :=
      [(" .C", .c), ("h", .cpp), ("..c ", .java), ("É", .cpp)]
    let table := empty.insertAll inserts
    LastInsert inserts (normalizeExtension "C") .java ∧ table.extensions = ["c", "h", "é"] ∧
      BehindDot "É" "a.b/x.É" ∧ table.resolve "a.b/x.É" = .ok .cpp ∧
      '.' ∉ "ΑΣ".toList ∧ Extension.lowered "ΑΣ" = normalizeExtension ".ας" ∧
      (table.insert ".ας" .cpp).resolve ("a.b/x" ++ "." ++ "ΑΣ") = .ok .cpp := by
  intro inserts table
  obtain ⟨hget, -, -, -, -, hresolve, hinsert⟩ := insertAll_laws inserts
  have hbehind : BehindDot "É" "a.b/x.É" := ⟨by decide, "a.b/x", by decide⟩
  have hdot : '.' ∉ "ΑΣ".toList := by decide
  have hlowered : Extension.lowered "ΑΣ" = normalizeExtension ".ας" := by decide +kernel
  exact ⟨(hget "C" .java).mp (by decide +kernel), by decide +kernel, hbehind,
    (((hresolve "a.b/x.É").2.2 "É" hbehind).1 .cpp).mpr (by decide +kernel), hdot, hlowered,
    hinsert ".ας" .cpp "a.b/x" "ΑΣ" hdot hlowered⟩

end LanguageTable

end SourcePrint
