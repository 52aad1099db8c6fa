namespace SourcePrint

/-- What a command line asks for. -/
structure Arguments where
  config : Option String := none
  tokens : Bool := false
  typeOnly : Bool := false
  logJson : Bool := false
  paths : List String := []
  deriving DecidableEq, Repr

inductive Request where
  | help
  | report (args : Arguments)
  deriving DecidableEq, Repr

namespace Arguments

/-- A flag may be given once. -/
def setFlag? (given : Bool) : Option Bool := if given then none else some true

/-- An option takes a value that is not empty, once. -/
def setConfig? (args : Arguments) (value : String) : Option Arguments :=
  if args.config.isSome ∨ value = "" then none else some { args with config := some value }

def addPath? (args : Arguments) (path : String) : Option Arguments :=
  if path = "" then none else some { args with paths := args.paths ++ [path] }

def after? (start word : String) : Option String :=
  if start.toList.isPrefixOf word.toList then
    some (String.ofList (word.toList.drop start.length))
  else none

/-- A word that begins with a dash and has more to it. -/
def isOption (word : String) : Bool := word.toList.head? == some '-' && word != "-"

def readFlag? (args : Arguments) (word : String) : Option Arguments :=
  if word = "--tokens" then
    (setFlag? args.tokens).map fun given => { args with tokens := given }
  else if word = "--type-only" then
    (setFlag? args.typeOnly).map fun given => { args with typeOnly := given }
  else if word = "--log-json" then
    (setFlag? args.logJson).map fun given => { args with logJson := given }
  else none

/-- A value attached to the short form of an option may follow an equals sign. -/
def attached (value : String) : String := (after? "=" value).getD value

/-- Of several letters behind one dash, the first is read first. -/
def asksHelp (word : String) : Bool := word == "--help" || "-h".toList.isPrefixOf word.toList

/-- Reads the words in turn. A value that is a word of its own is not itself an option. Nothing
behind a word that asks for help is read. -/
def read? (args : Arguments) : List String → Option Request
  | [] => some (.report args)
  | "--" :: rest => (rest.foldlM addPath? args).map .report
  | word :: rest =>
    if word = "-c" ∨ word = "--config" then
      match rest with
      | value :: rest =>
        if isOption value then none else (args.setConfig? value).bind fun args => read? args rest
      | [] => none
    else if !isOption word then (args.addPath? word).bind fun args => read? args rest
    else if asksHelp word then some .help
    else
      match after? "--config=" word with
      | some value => (args.setConfig? value).bind fun args => read? args rest
      | none =>
        match after? "-c" word with
        | some value => (args.setConfig? (attached value)).bind fun args => read? args rest
        | none => (args.readFlag? word).bind fun args => read? args rest

/-- There must be a path, and tokens cannot be asked for together with the language alone. -/
def request? (words : List String) : Option Request := do
  match ← read? {} words with
  | .help => return .help
  | .report args =>
    if args.paths = [] ∨ (args.tokens ∧ args.typeOnly) then none else return .report args

/-- What is asked for, unless that is help. -/
def parse? (words : List String) : Option Arguments :=
  match request? words with
  | some (.report args) => some args
  | _ => none

end Arguments

end SourcePrint
