import SourcePrint.Proofs.Clones

namespace SourcePrint

namespace Token

def onLine (line : Nat) (token : Token) : Token := { token with logicalLine := some line }

/-- The token in a stream that has more logical lines in front. -/
def below (lines : Nat) (token : Token) : Token :=
  { token with logicalLine := token.logicalLine.map (lines + ·) }

def unnumbered (token : Token) : Token := { token with logicalLine := none }

theorem eq_of_unnumbered {xs ys : List Token} (hrest : xs.map unnumbered = ys.map unnumbered)
    (hlines : xs.map (·.logicalLine) = ys.map (·.logicalLine)) : xs = ys := by
  induction xs generalizing ys with
  | nil => exact (List.map_eq_nil_iff.mp hrest.symm).symm
  | cons x xs ih =>
    cases ys with
    | nil => cases hrest
    | cons y ys =>
      obtain ⟨hfirst, hrest⟩ := List.cons.inj hrest
      obtain ⟨hline, hlines⟩ := List.cons.inj hlines
      have htoken : x = y := by
        cases x
        cases y
        simp_all [unnumbered]
      rw [htoken, ih hrest hlines]

end Token

namespace LogicalLineConfig

/-- The token ends its logical line. -/
def Ends (config : LogicalLineConfig) (token : Token) : Prop :=
  ∃ symbol ∈ config.breakSymbols, token.kind = .verbatim symbol

instance (config : LogicalLineConfig) : DecidablePred config.Ends := fun token =>
  inferInstanceAs (Decidable (∃ symbol ∈ config.breakSymbols, token.kind = .verbatim symbol))

/-- How many logical lines end in a stream. -/
def ended (config : LogicalLineConfig) (tokens : List Token) : Nat :=
  tokens.countP (config.Ends ·)

variable {config : LogicalLineConfig}

theorem isBreak_kind (token : Token) : config.isBreak token.kind = decide (config.Ends token) := by
  cases hkind : token.kind <;> simp [isBreak, Ends, hkind]

theorem ended_cons (token : Token) (tokens : List Token) :
    config.ended (token :: tokens) =
      (if config.Ends token then 1 else 0) + config.ended tokens := by
  simp [ended, List.countP_cons, Nat.add_comm]

theorem number_eq (line : Nat) (token : Token) :
    config.number line token =
      (token.onLine line, line + if config.Ends token then 1 else 0) := by
  rw [number, isBreak_kind]
  by_cases h : config.Ends token <;> simp [h, Token.onLine]

/-- The counter that is handed from token to token counts the breaks passed so far. -/
theorem getElem?_mapThread_number (line : Nat) (tokens : List Token) (i : Nat) :
    (mapThread config.number line tokens)[i]? =
      tokens[i]?.map (Token.onLine (line + config.ended (tokens.take i))) := by
  induction tokens generalizing line i with
  | nil => rfl
  | cons token tokens ih =>
    rw [mapThread_cons, number_eq]
    cases i with
    | zero => rfl
    | succ i =>
      rw [List.getElem?_cons_succ, ih, List.getElem?_cons_succ, List.take_succ_cons, ended_cons,
        ← Nat.add_assoc]

theorem getElem?_assign (config : LogicalLineConfig) (tokens : List Token) (i : Nat) :
    (config.assign tokens)[i]? = tokens[i]?.map (Token.onLine (1 + config.ended (tokens.take i))) :=
  getElem?_mapThread_number 1 tokens i

theorem ended_eq (tokens : List Token) :
    config.ended tokens = (tokens.map (·.kind)).countP config.isBreak := by
  simp [ended, List.countP_map, Function.comp_def, isBreak_kind]

theorem map_logicalLine_assign {config' : LogicalLineConfig} {tokens other : List Token}
    (hkinds : other.map (·.kind) = tokens.map (·.kind))
    (hsymbols : ∀ symbol, symbol ∈ config'.breakSymbols ↔ symbol ∈ config.breakSymbols) :
    (config'.assign other).map (·.logicalLine) = (config.assign tokens).map (·.logicalLine) := by
  have hline (config : LogicalLineConfig) (tokens : List Token) (i : Nat) :
      ((config.assign tokens).map (·.logicalLine))[i]? = (tokens.map (·.kind))[i]?.map fun _ =>
        some (1 + ((tokens.map (·.kind)).take i).countP config.isBreak) := by
    rw [List.getElem?_map, getElem?_assign, Option.map_map, ended_eq, List.map_take,
      List.getElem?_map, Option.map_map]
    rfl
  have hbreak : config'.isBreak = config.isBreak := by
    funext symbol
    cases symbol <;> simp [isBreak, hsymbols]
  apply List.ext_getElem?
  intro i
  rw [hline, hline, hkinds, hbreak]

/-- Numbers from an earlier pass do not matter, nor do repetition and order of the symbols. -/
theorem assign_congr {config' : LogicalLineConfig} {tokens other : List Token}
    (hrest : other.map Token.unnumbered = tokens.map Token.unnumbered)
    (hsymbols : ∀ symbol, symbol ∈ config'.breakSymbols ↔ symbol ∈ config.breakSymbols) :
    config'.assign other = config.assign tokens := by
  have hkinds : other.map (·.kind) = tokens.map (·.kind) := by
    simpa [Function.comp_def, Token.unnumbered] using congrArg (List.map (·.kind)) hrest
  have hunnumbered (config : LogicalLineConfig) (tokens : List Token) :
      (config.assign tokens).map Token.unnumbered = tokens.map Token.unnumbered :=
    config.map_assign (fun _ _ => rfl) tokens
  apply Token.eq_of_unnumbered
  · rw [hunnumbered, hunnumbered, hrest]
  · exact map_logicalLine_assign hkinds hsymbols

theorem assign_append (config : LogicalLineConfig) (tokens more : List Token) :
    config.assign (tokens ++ more) =
      config.assign tokens ++ (config.assign more).map (Token.below (config.ended tokens)) := by
  apply List.ext_getElem?
  intro i
  have hlength : (config.assign tokens).length = tokens.length := length_mapThread ..
  rw [getElem?_assign]
  by_cases hi : i < tokens.length
  · rw [List.getElem?_append_left hi, List.getElem?_append_left (by rwa [hlength]),
      List.take_append_of_le_length (Nat.le_of_lt hi), getElem?_assign]
  · have hi := Nat.not_lt.mp hi
    rw [List.getElem?_append_right hi, List.getElem?_append_right (by rwa [hlength]), hlength,
      List.getElem?_map, getElem?_assign, List.take_append, List.take_of_length_le hi, ended,
      List.countP_append, Option.map_map, Nat.add_left_comm]
    rfl

/-- From one token to the next the number grows by one exactly behind a token that ends its line. -/
theorem logicalLine_succ {tokens : List Token} {i : Nat} {token next : Token}
    (h : (config.assign tokens)[i]? = some token)
    (hnext : (config.assign tokens)[i + 1]? = some next) :
    ∃ line, token.logicalLine = some line ∧
      next.logicalLine = some (if config.Ends token then line + 1 else line) := by
  rw [getElem?_assign] at h hnext
  obtain ⟨given, hgiven, rfl⟩ := Option.map_eq_some_iff.mp h
  obtain ⟨_, -, rfl⟩ := Option.map_eq_some_iff.mp hnext
  have hends : config.Ends (given.onLine (1 + config.ended (tokens.take i))) ↔
      config.Ends given := .rfl
  have hpassed : config.ended (tokens.take (i + 1)) =
      config.ended (tokens.take i) + if config.Ends given then 1 else 0 := by
    simp [ended, List.take_add_one, hgiven]
  refine ⟨_, rfl, ?_⟩
  rw [Token.onLine, hpassed]
  by_cases h : config.Ends given
  · simp [hends, h, Nat.add_assoc]
  · simp [hends, h]

/-- Logical lines are numbered by the breaks in front. A token keeps all but its number, which is
one more than the number of tokens before it that end a line; so a break belongs to the line it
ends, and a marker ends none whatever it stands for. The numbers begin at one and grow by at most
one, numbering again changes nothing, only the kinds and the set of break symbols count, the texts
stay, and a stream behind another one is numbered as it would be alone, moved down by the lines that
end in front of it. -/
theorem assign_numbering (config : LogicalLineConfig) (tokens : List Token) :
    (config.assign tokens).length = tokens.length ∧
    (∀ (i : Nat) (token : Token), tokens[i]? = some token → (config.assign tokens)[i]? =
      some { token with logicalLine := some (1 + config.ended (tokens.take i)) }) ∧
    (∀ first ∈ (config.assign tokens).head?, first.logicalLine = some 1) ∧
    (∀ (i : Nat) (token next : Token), (config.assign tokens)[i]? = some token →
      (config.assign tokens)[i + 1]? = some next → ∃ line, token.logicalLine = some line ∧
        next.logicalLine = some (if config.Ends token then line + 1 else line)) ∧
    config.assign (config.assign tokens) = config.assign tokens ∧
    (∀ other : List Token, other.map (·.kind) = tokens.map (·.kind) →
      (config.assign other).map (·.logicalLine) = (config.assign tokens).map (·.logicalLine)) ∧
    (∀ config' : LogicalLineConfig,
      (∀ symbol, symbol ∈ config'.breakSymbols ↔ symbol ∈ config.breakSymbols) →
      config'.assign tokens = config.assign tokens) ∧
    Token.canonicalText (config.assign tokens) = Token.canonicalText tokens ∧
    Token.sourceText (config.assign tokens) = Token.sourceText tokens ∧
    ∀ more : List Token, config.assign (tokens ++ more) =
      config.assign tokens ++ (config.assign more).map (Token.below (config.ended tokens)) := by
  refine ⟨length_mapThread .., ?_, ?_, fun _ _ _ => logicalLine_succ, ?_,
    fun _ hkinds => map_logicalLine_assign hkinds fun _ => .rfl, fun _ => assign_congr rfl,
    congrArg String.join (config.map_assign (fun _ _ => rfl) tokens),
    congrArg String.join (config.map_assign (fun _ _ => rfl) tokens), config.assign_append tokens⟩
  · intro i token htoken
    rw [getElem?_assign, htoken, Option.map_some, Token.onLine]
  · intro first hfirst
    rw [List.head?_eq_getElem?, getElem?_assign] at hfirst
    obtain ⟨_, -, rfl⟩ := Option.map_eq_some_iff.mp hfirst
    rfl
  · exact assign_congr (config.map_assign (fun _ _ => rfl) tokens) fun _ => .rfl

/-- A break symbol given twice and tokens with numbers from elsewhere. The third token reads as a
semicolon but is a marker, so it ends no line. -/
theorem assign_numbering_marker :
    let config : LogicalLineConfig := ⟨[";", "\x7b", ";"]⟩
    let marker : Token := ⟨.literal, ";", 2, 1, 3, none, "a.c"⟩
    let tokens : List Token := [⟨.identifier, "x", 0, 1, 1, some 9, "a.c"⟩,
      ⟨.verbatim "\x7b", "\x7b", 1, 1, 2, none, "a.c"⟩, marker,
      ⟨.verbatim ";", ";", 3, 1, 4, some 1, "a.c"⟩, ⟨.identifier, "y", 4, 1, 5, none, "a.c"⟩]
    tokens[2]? = some marker ∧ config.ended (tokens.take 2) = 1 ∧
      (config.assign tokens)[2]? = some { marker with logicalLine := some 2 } ∧
      (config.assign tokens).map (·.logicalLine) = [some 1, some 1, some 2, some 2, some 3] ∧
      assign ⟨["\x7b", ";"]⟩ tokens = config.assign tokens := by
  intro config marker tokens
  obtain ⟨-, hnumber, -, -, -, -, hset, -⟩ := assign_numbering config tokens
  have hmarker : (config.assign tokens)[2]? = some { marker with logicalLine := some 2 } :=
    hnumber 2 marker rfl
  have hsymbols (symbol : String) : symbol ∈ ["\x7b", ";"] ↔ symbol ∈ config.breakSymbols := by
    simp [config, or_comm]
  exact ⟨rfl, by decide, hmarker, by decide, hset ⟨["\x7b", ";"]⟩ hsymbols⟩

end LogicalLineConfig

end SourcePrint
