import SourcePrint.Command.Arguments

namespace SourcePrint.Arguments

variable {args next final : Arguments} {word value path : String} {rest given : List String}

/-- The options that ask for this, each with its value attached. -/
def options (args : Arguments) : List String :=
  args.config.toList.map ("--config=" ++ ·) ++
    ((if args.tokens then ["--tokens"] else []) ++
      ((if args.typeOnly then ["--type-only"] else []) ++
        if args.logJson then ["--log-json"] else []))

/-- A command line that asks for this: options first, and all paths behind the word that ends
options. -/
def words (args : Arguments) : List String := args.options ++ "--" :: args.paths

/-- Values and paths are never empty. -/
structure Named (args : Arguments) : Prop where
  config : args.config ≠ some ""
  paths : "" ∉ args.paths

/-- What a command line can ask for. -/
structure Valid (args : Arguments) : Prop extends Named args where
  some : args.paths ≠ []
  apart : ¬ (args.tokens = true ∧ args.typeOnly = true)

def only (args : Arguments) (path : String) : Arguments := { args with paths := [path] }

theorem Valid.only (h : args.Valid) (hpath : path ∈ args.paths) : (args.only path).Valid where
  config := h.config
  paths := by
    intro hempty
    obtain rfl := List.mem_singleton.mp hempty
    exact h.paths hpath
  some := List.cons_ne_nil _ _
  apart := h.apart

theorem setConfig?_eq_some_iff :
    args.setConfig? value = some next ↔
      args.config = none ∧ value ≠ "" ∧ { args with config := some value } = next := by
  unfold setConfig?
  cases args.config <;> simp

theorem addPath?_eq_some_iff :
    args.addPath? path = some next ↔
      path ≠ "" ∧ { args with paths := args.paths ++ [path] } = next := by
  simp [addPath?]

theorem of_readFlag? (h : args.readFlag? word = some next) :
    next.config = args.config ∧ next.paths = args.paths := by
  unfold readFlag? at h
  split at h
  · obtain ⟨_, -, rfl⟩ := Option.map_eq_some_iff.mp h
    exact ⟨rfl, rfl⟩
  · split at h
    · obtain ⟨_, -, rfl⟩ := Option.map_eq_some_iff.mp h
      exact ⟨rfl, rfl⟩
    · split at h
      · obtain ⟨_, -, rfl⟩ := Option.map_eq_some_iff.mp h
        exact ⟨rfl, rfl⟩
      · cases h

namespace Named

theorem setConfig? (h : args.Named) (hnext : args.setConfig? value = some next) : next.Named := by
  obtain ⟨-, hvalue, rfl⟩ := setConfig?_eq_some_iff.mp hnext
  exact ⟨by simpa using hvalue, h.paths⟩

theorem addPath? (h : args.Named) (hnext : args.addPath? path = some next) : next.Named := by
  obtain ⟨hpath, rfl⟩ := addPath?_eq_some_iff.mp hnext
  refine ⟨h.config, ?_⟩
  simp [h.paths, hpath.symm]

theorem readFlag? (h : args.Named) (hnext : args.readFlag? word = some next) : next.Named := by
  obtain ⟨hconfig, hpaths⟩ := of_readFlag? hnext
  exact ⟨hconfig ▸ h.config, hpaths ▸ h.paths⟩

theorem addPaths (h : args.Named) (hfinal : rest.foldlM Arguments.addPath? args = some final) :
    final.Named := by
  induction rest generalizing args with
  | nil =>
    obtain rfl := Option.some.inj hfinal
    exact h
  | cons path rest ih =>
    obtain ⟨next, hnext, hrest⟩ := Option.bind_eq_some_iff.mp hfinal
    exact ih (h.addPath? hnext) hrest

/-- Whatever word comes next, what has been read stays so, and so to the end. -/
theorem read? (h : args.Named) (hfinal : args.read? given = some (.report final)) :
    final.Named := by
  fun_induction Arguments.read? args given with
  | case1 args =>
    obtain rfl := Request.report.inj (Option.some.inj hfinal)
    exact h
  | case2 args rest =>
    obtain ⟨found, hfound, hreport⟩ := Option.map_eq_some_iff.mp hfinal
    obtain rfl := Request.report.inj hreport
    exact h.addPaths hfound
  | case3 => cases hfinal
  | case5 => cases hfinal
  | case4 args word hend hconfig value rest hvalue ih =>
    obtain ⟨next, hnext, hrest⟩ := Option.bind_eq_some_iff.mp hfinal
    exact ih next (h.setConfig? hnext) hrest
  | case6 args word rest hend hconfig hpath ih =>
    obtain ⟨next, hnext, hrest⟩ := Option.bind_eq_some_iff.mp hfinal
    exact ih next (h.addPath? hnext) hrest
  | case7 => cases hfinal
  | case8 args word rest hend hconfig hoption hhelp value hvalue ih =>
    obtain ⟨next, hnext, hrest⟩ := Option.bind_eq_some_iff.mp hfinal
    exact ih next (h.setConfig? hnext) hrest
  | case9 args word rest hend hconfig hoption hhelp hlong value hvalue ih =>
    obtain ⟨next, hnext, hrest⟩ := Option.bind_eq_some_iff.mp hfinal
    exact ih next (h.setConfig? hnext) hrest
  | case10 args word rest hend hconfig hoption hhelp hlong hshort ih =>
    obtain ⟨next, hnext, hrest⟩ := Option.bind_eq_some_iff.mp hfinal
    exact ih next (h.readFlag? hnext) hrest

end Named

/-- A word that is an option, but neither ends options, nor has its value behind it, nor asks for
help. -/
def standsAlone (word : String) : Bool :=
  isOption word && !(["--", "-c", "--config"].contains word) && !asksHelp word

theorem of_standsAlone (h : standsAlone word = true) :
    isOption word = true ∧ word ≠ "--" ∧ ¬ (word = "-c" ∨ word = "--config") ∧
      asksHelp word = false := by
  simpa [standsAlone, not_or, and_assoc] using h

theorem read?_attached (hword : standsAlone word = true)
    (hvalue : after? "--config=" word = some value) :
    args.read? (word :: rest) = (args.setConfig? value).bind fun next => next.read? rest := by
  obtain ⟨hoption, hend, hapart, hhelp⟩ := of_standsAlone hword
  cases rest with
  | nil => simp [read?.eq_4 args word hend, hapart, hoption, hhelp, hvalue]
  | cons more rest => simp [read?.eq_3 args word more rest hend, hapart, hoption, hhelp, hvalue]

theorem read?_flag (hword : standsAlone word = true) (hlong : after? "--config=" word = none)
    (hshort : after? "-c" word = none) :
    args.read? (word :: rest) = (args.readFlag? word).bind fun next => next.read? rest := by
  obtain ⟨hoption, hend, hapart, hhelp⟩ := of_standsAlone hword
  cases rest with
  | nil => simp [read?.eq_4 args word hend, hapart, hoption, hhelp, hlong, hshort]
  | cons more rest =>
    simp [read?.eq_3 args word more rest hend, hapart, hoption, hhelp, hlong, hshort]

theorem read?_help (hword : asksHelp word = true) :
    args.read? (word :: rest) = some .help := by
  have hoption : isOption word = true ∧ word ≠ "--" ∧ ¬ (word = "-c" ∨ word = "--config") := by
    rw [asksHelp, Bool.or_eq_true, beq_iff_eq, List.isPrefixOf_iff_prefix] at hword
    obtain rfl | ⟨more, hmore⟩ := hword
    · decide
    · simp [isOption, ← String.toList_inj, ← hmore]
  obtain ⟨hoption, hend, hapart⟩ := hoption
  cases rest with
  | nil => simp [read?.eq_4 args word hend, hapart, hoption, hword]
  | cons more rest => simp [read?.eq_3 args word more rest hend, hapart, hoption, hword]

theorem read?_config {config : Option String} (hconfig : config ≠ some "") (rest : List String) :
    read? {} (config.toList.map ("--config=" ++ ·) ++ rest) = read? { config } rest := by
  cases config with
  | none => rfl
  | some value =>
    have hafter : after? "--config=" ("--config=" ++ value) = some value := by
      rw [after?, String.toList_append,
        if_pos (List.isPrefixOf_iff_prefix.mpr (List.prefix_append _ _)), ← String.length_toList,
        List.drop_left, String.ofList_toList]
    have halone : standsAlone ("--config=" ++ value) = true := by
      simp [standsAlone, isOption, asksHelp, List.isPrefixOf, ← String.toList_inj]
    have hvalue : value ≠ "" := by simpa using hconfig
    change read? {} (("--config=" ++ value) :: rest) = _
    rw [read?_attached halone hafter, setConfig?_eq_some_iff.mpr ⟨rfl, hvalue, rfl⟩,
      Option.bind_some]

theorem read?_wanted {wanted : Bool} (hword : word ∈ ["--tokens", "--type-only", "--log-json"])
    (hgiven : wanted = true → args.readFlag? word = some next) (hnot : wanted = false → args = next)
    (rest : List String) :
    args.read? ((if wanted then [word] else []) ++ rest) = next.read? rest := by
  cases wanted with
  | false => rw [hnot rfl]; rfl
  | true =>
    have hflag : standsAlone word = true ∧ after? "--config=" word = none ∧
        after? "-c" word = none := by
      simp only [List.mem_cons, List.not_mem_nil, or_false] at hword
      rcases hword with rfl | rfl | rfl <;> decide
    change args.read? (word :: rest) = _
    rw [read?_flag hflag.1 hflag.2.1 hflag.2.2, hgiven rfl, Option.bind_some]

theorem read?_options (hconfig : args.config ≠ some "") (rest : List String) :
    read? {} (args.options ++ rest) = read? { args with paths := [] } rest := by
  obtain ⟨config, tokens, typeOnly, logJson, paths⟩ := args
  simp only [options, List.append_assoc]
  calc read? {} _
      = read? { config } _ := read?_config hconfig _
    _ = read? { config, tokens } _ :=
      read?_wanted (by simp) (by rintro rfl; rfl) (by rintro rfl; rfl) _
    _ = read? { config, tokens, typeOnly } _ :=
      read?_wanted (by simp) (by rintro rfl; rfl) (by rintro rfl; rfl) _
    _ = read? { config, tokens, typeOnly, logJson } rest :=
      read?_wanted (by simp) (by rintro rfl; rfl) (by rintro rfl; rfl) _

/-- Behind any options, also those that cannot be asked for together, help is given, whatever
follows. -/
theorem request?_help (hconfig : args.config ≠ some "") (hword : asksHelp word = true) :
    request? (args.options ++ word :: rest) = some .help := by
  rw [request?, read?_options hconfig, read?_help hword]
  rfl

end SourcePrint.Arguments
