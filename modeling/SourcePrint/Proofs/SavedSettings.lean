import SourcePrint.Proofs.Extensions
import SourcePrint.Proofs.Records
import SourcePrint.Record.Setting

namespace SourcePrint

open Json (Plain)
open Record

theorem Record.restores_strs (texts : List String) : Restores Json.strs Json.strs? texts :=
  restores_list fun text _ => restores_str text

theorem SourcePolicy.restores (policy : SourcePolicy) : Restores toJson ofJson? policy := by
  have hnewlines := restores_bool policy.normalizeNewlines
  have htrim := restores_bool policy.trim
  constructor
  · simp [toJson, ofJson?, Fields.ofJson?, List.lookup_cons, Record.optional, hnewlines.decoded,
      htrim.decoded]
  · simp [toJson, plain_obj_iff, hnewlines.plain, htrim.plain]

theorem ClassifierConfig.restores (config : ClassifierConfig) : Restores toJson ofJson? config := by
  have hnames := restores_strs config.builtinTypeNames
  constructor
  · simp [toJson, ofJson?, Fields.ofJson?, List.lookup_cons, Record.optional, hnames.decoded]
  · simp [toJson, plain_obj_iff, hnames.plain]

theorem CanonicalConfig.restores (config : CanonicalConfig) : Restores toJson ofJson? config := by
  have hversion := restores_word32 config.version
  have hclassifier := config.classifier.restores
  constructor
  · simp [toJson, ofJson?, Fields.ofJson?, List.lookup_cons, required, Record.optional,
      hversion.decoded, hclassifier.decoded]
  · simp [toJson, plain_obj_iff, hversion.plain, hclassifier.plain]

theorem LogicalLineConfig.restores (config : LogicalLineConfig) :
    Restores toJson ofJson? config := by
  have hsymbols := restores_strs config.breakSymbols
  constructor
  · simp [toJson, ofJson?, Fields.ofJson?, List.lookup_cons, Record.optional, hsymbols.decoded]
  · simp [toJson, plain_obj_iff, hsymbols.plain]

namespace LanguageTable

/-- Entries as the members of an object, in the order they are given. -/
def entriesToJson (entries : List (String × Language)) : Json :=
  .obj (entries.map fun entry => (entry.1, entry.2.toJson))

theorem ofJson?_entriesToJson (order : ExtensionMap.Order) (entries : List (String × Language)) :
    ofJson? order (entriesToJson entries) =
      some (empty.insertAll (order.arrange (ExtensionMap.ofList entries).entries)) := by
  have hentries : (entries.map fun entry => (entry.1, entry.2.toJson)).mapM
      (fun m => (Language.ofJson? m.2).map fun language => (m.1, language)) = some entries := by
    induction entries with
    | nil => rfl
    | cons entry entries ih =>
      simp [List.mapM_cons, (Language.restores entry.2).decoded, ih]
  rw [entriesToJson, ofJson?, hentries]
  rfl

theorem perm_arrange_ofList {entries : List (String × Language)}
    (h : (entries.map (·.1)).Nodup) (order : ExtensionMap.Order) :
    (order.arrange (ExtensionMap.ofList entries).entries).Perm entries :=
  (order.perm _).trans (ExtensionMap.perm_ofList h)

/-- The entries of a table are inserted again, in whatever order they were written and are gone
through. -/
theorem exists_ofJson?_entriesToJson {table : LanguageTable} {entries : List (String × Language)}
    (h : entries.Perm table.entries) (order : ExtensionMap.Order) :
    ∃ arranged, arranged.Perm table.entries ∧
      ofJson? order (entriesToJson entries) = some (empty.insertAll arranged) := by
  have hnames : (entries.map (·.1)).Nodup := (h.map _).nodup_iff.mpr table.nodup_extensions
  exact ⟨_, (perm_arrange_ofList hnames order).trans h, ofJson?_entriesToJson order entries⟩

/-- The order in which members are gone through matters only where two of them are stored alike. -/
theorem ofJson?_entriesToJson_of_apart {entries : List (String × Language)}
    (h : (entries.map fun entry => normalizeExtension entry.1).Nodup)
    (order : ExtensionMap.Order) :
    ofJson? order (entriesToJson entries) = some (empty.insertAll entries) := by
  have hnames : (entries.map (·.1)).Nodup := by
    rw [List.Nodup, List.pairwise_map] at h ⊢
    exact h.imp fun hapart hsame => hapart (congrArg normalizeExtension hsame)
  rw [ofJson?_entriesToJson, insertAll_perm (perm_arrange_ofList hnames order).symm h]

example :
    let json := entriesToJson [(".c", .java), ("c", .c)]
    let descending : ExtensionMap.Order := ⟨List.reverse, List.reverse_perm⟩
    (ofJson? .ascending json).map (·.resolve "a.c") = some (.ok .c) ∧
      (ofJson? descending json).map (·.resolve "a.c") = some (.ok .java) := by
  decide

theorem plain_entriesToJson (entries : List (String × Language)) :
    Plain (entriesToJson entries) := by
  refine .obj fun m hm => ?_
  obtain ⟨entry, -, rfl⟩ := List.mem_map.mp hm
  exact entry.2.restores.plain

end LanguageTable

/-- Settings come back from their text as they were, but that the extensions are normalized once
more. -/
theorem Config.exists_read_text {config : Config} (h : config.maxSourceBytes < UInt64.size)
    (order : ExtensionMap.Order) :
    ∃ arranged, arranged.Perm config.languages.entries ∧
      (Json.parse? config.toJson.render).bind (ofJson? order) =
        some { config with languages := LanguageTable.empty.insertAll arranged } := by
  have hcanonical := config.canonical.restores
  obtain ⟨arranged, hperm, hlanguages⟩ :=
    LanguageTable.exists_ofJson?_entriesToJson (.refl config.languages.entries) order
  have htable : Plain config.languages.toJson := LanguageTable.plain_entriesToJson _
  have hpolicy := config.sourcePolicy.restores
  have hlines := restores_option (o := config.logicalLines) (fun lines _ => lines.restores)
    (fun lines _ => by simp [LogicalLineConfig.toJson])
  have hlimit := restores_nat h
  have hplain : Plain config.toJson := by
    simp [toJson, plain_obj_iff, hcanonical.plain, htable, hpolicy.plain, hlines.plain,
      hlimit.plain]
  refine ⟨arranged, hperm, ?_⟩
  change LanguageTable.ofJson? order config.languages.toJson = _ at hlanguages
  rw [Json.parse?_render hplain]
  simp [toJson, ofJson?, Fields.ofJson?, List.lookup_cons, Record.optional, hcanonical.decoded,
    hlanguages, hpolicy.decoded, hlines.decoded, hlimit.decoded]

namespace LanguageTable

theorem stored_standard : standard.Stored := stored_empty.insertAll _

theorem beginsBlank_standard : ∀ key ∈ standard.extensions, Extension.beginsBlank key = false := by
  have hall : (standard.extensions.all fun key => !Extension.beginsBlank key) = true := by
    decide +kernel
  simpa using hall

theorem beginsBlank_insertAll_iff {start : LanguageTable}
    (hstart : ∀ key ∈ start.extensions, Extension.beginsBlank key = false)
    (inserts : List (String × Language)) :
    (∀ key ∈ (start.insertAll inserts).extensions, Extension.beginsBlank key = false) ↔
      ∀ entry ∈ inserts, Extension.keepsBlank entry.1 = false := by
  constructor
  · intro h entry hentry
    rw [← Extension.beginsBlank_normalizeExtension]
    exact h _ (mem_extensions_insertAll.mpr (.inr ⟨entry, hentry, rfl⟩))
  · intro h key hkey
    rcases mem_extensions_insertAll.mp hkey with hkey | ⟨entry, hentry, rfl⟩
    · exact hstart key hkey
    · rw [Extension.beginsBlank_normalizeExtension]
      exact h entry hentry

theorem mem_extensions_insertAll_perm {table : LanguageTable}
    {entries : List (String × Language)} (h : entries.Perm table.entries) (key : String) :
    key ∈ (empty.insertAll entries).extensions ↔
      ∃ stored ∈ table.extensions, normalizeExtension stored = key := by
  rw [mem_extensions_insertAll]
  constructor
  · rintro (hkey | ⟨entry, hentry, rfl⟩)
    · cases hkey
    · exact ⟨entry.1, mem_extensions_of_perm h hentry, rfl⟩
  · rintro ⟨stored, hstored, rfl⟩
    obtain ⟨entry, hentry, rfl⟩ := List.mem_map.mp hstored
    exact .inr ⟨entry, h.mem_iff.mpr hentry, rfl⟩

/-- A table that was made by inserts is read back from its text, in whatever order its entries were
written and are gone through, as it was exactly if no inserted extension has a blank right behind its
leading dots. The extensions that are read are the stored ones normalized once more. Settings with
such a table are read back as they were under the same condition, and then a file has the same
language. -/
theorem saved_iff (start : LanguageTable) (hstart : start = .empty ∨ start = .standard)
    (inserts entries : List (String × Language))
    (hentries : entries.Perm (start.insertAll inserts).entries) (order : ExtensionMap.Order) :
    (∃ decoded, (Json.parse? (entriesToJson entries).render).bind (ofJson? order) = some decoded ∧
      (decoded = start.insertAll inserts ↔
        ∀ entry ∈ inserts, Extension.keepsBlank entry.1 = false) ∧
      ∀ key, key ∈ decoded.extensions ↔
        ∃ stored ∈ (start.insertAll inserts).extensions, normalizeExtension stored = key) ∧
    ∀ config : Config, config.languages = start.insertAll inserts →
      config.maxSourceBytes < UInt64.size →
      ∃ saved, (Json.parse? config.toJson.render).bind (Config.ofJson? order) = some saved ∧
        (saved = config ↔ ∀ entry ∈ inserts, Extension.keepsBlank entry.1 = false) ∧
        ((∀ entry ∈ inserts, Extension.keepsBlank entry.1 = false) →
          ∀ filename, saved.languages.resolve filename = config.languages.resolve filename) := by
  have hstored : (start.insertAll inserts).Stored := by
    rcases hstart with rfl | rfl
    · exact stored_empty.insertAll inserts
    · exact stored_standard.insertAll inserts
  have hblank : ∀ key ∈ start.extensions, Extension.beginsBlank key = false := by
    rcases hstart with rfl | rfl
    · intro key hkey
      cases hkey
    · exact beginsBlank_standard
  have hagain {arranged : List (String × Language)}
      (harranged : arranged.Perm (start.insertAll inserts).entries) :
      empty.insertAll arranged = start.insertAll inserts ↔
        ∀ entry ∈ inserts, Extension.keepsBlank entry.1 = false :=
    (hstored.insertAll_eq_iff harranged).trans (beginsBlank_insertAll_iff hblank inserts)
  constructor
  · obtain ⟨arranged, harranged, hread⟩ := exists_ofJson?_entriesToJson hentries order
    refine ⟨empty.insertAll arranged, ?_, hagain harranged, fun key => ?_⟩
    · rw [Json.parse?_render (plain_entriesToJson entries), Option.bind_some, hread]
    · exact mem_extensions_insertAll_perm harranged key
  · intro config hconfig hlimit
    obtain ⟨arranged, harranged, hread⟩ := Config.exists_read_text hlimit order
    have hsame : { config with languages := empty.insertAll arranged } = config ↔
        ∀ entry ∈ inserts, Extension.keepsBlank entry.1 = false := by
      rw [← hagain (hconfig ▸ harranged), ← hconfig]
      exact ⟨fun h => congrArg Config.languages h, fun h => by rw [h]⟩
    refine ⟨_, hread, hsame, fun hclean filename => ?_⟩
    rw [hsame.mpr hclean]

theorem saved_iff_spellings :
    let inserts := [(" ..ΤΕΛΟΣ ", Language.java), (".INO", .cpp), ("C", .cpp)]
    let table := standard.insertAll inserts
    let config : Config := { languages := table }
    table.extensions = ["c", "c++", "cc", "cpp", "h", "hpp", "ino", "java", "τελος"] ∧
      (∀ entry ∈ inserts, Extension.keepsBlank entry.1 = false) ∧
      ∀ order : ExtensionMap.Order,
        (Json.parse? (entriesToJson table.entries.reverse).render).bind (ofJson? order) =
          some table ∧
        (Json.parse? config.toJson.render).bind (Config.ofJson? order) = some config := by
  intro inserts table config
  have hclean : ∀ entry ∈ inserts, Extension.keepsBlank entry.1 = false := by decide +kernel
  refine ⟨by decide +kernel, hclean, fun order => ?_⟩
  obtain ⟨⟨decoded, hdecoded, hsame, -⟩, hconfig⟩ :=
    saved_iff standard (.inr rfl) inserts table.entries.reverse (List.reverse_perm _) order
  obtain ⟨saved, hsaved, hsaved_same, -⟩ := hconfig config rfl (by decide)
  rw [hsame.mpr hclean] at hdecoded
  rw [hsaved_same.mpr hclean] at hsaved
  exact ⟨hdecoded, hsaved⟩

/-- The blank behind the dot is stored, and is lost when the table is read back. -/
theorem saved_loses_blank :
    let table := empty.insert ". c" .c
    table.resolve "x. c" = .ok .c ∧ ∀ order : ExtensionMap.Order,
      ∃ decoded, (Json.parse? table.toJson.render).bind (ofJson? order) = some decoded ∧
        decoded ≠ table ∧ decoded.resolve "x. c" = .error (.unsupportedLanguage " c") := by
  intro table
  have hlost : empty.insertAll table.entries ≠ table ∧
      (empty.insertAll table.entries).resolve "x. c" = .error (.unsupportedLanguage " c") := by
    decide +kernel
  refine ⟨by decide +kernel, fun order => ⟨empty.insertAll table.entries, ?_, hlost⟩⟩
  obtain ⟨arranged, harranged, hread⟩ :=
    exists_ofJson?_entriesToJson (.refl table.entries) order
  have hsingle : arranged = table.entries := List.perm_singleton.mp harranged
  have hplain : Plain table.toJson := plain_entriesToJson _
  rw [Json.parse?_render hplain, Option.bind_some, ← hsingle]
  exact hread

end LanguageTable

end SourcePrint
