import SourcePrint.Yaml.Token

namespace SourcePrint.Yaml

/-- A part of a document. Only scalars keep their tags, since no collection depends on one. -/
inductive Node where
  | scalar (text : String) (style : Style) (tag : Option Tag)
  | sequence (items : List Node)
  | mapping (entries : List (Node × Node))
  /-- Another node, by the number of its anchor. -/
  | reference (number : Nat)

namespace Node

def empty : Node := .scalar "" .plain none

/-- What is known at a point of a document. -/
structure Scope where
  handles : Handles
  /-- The number that each anchor name has here. -/
  numbers : List (String × Nat) := []
  /-- Nodes by the numbers of their anchors, the one that begins last first. -/
  named : List (Nat × Node) := []

/-- What is known inside a node. Its anchor takes as its number how many names are known before,
so a name that comes again may take a number that another anchor has too. -/
def Scope.enter (scope : Scope) : Option String → Scope
  | none => scope
  | some name =>
    let others := scope.numbers.filter fun known => known.1 != name
    { scope with numbers := (name, scope.numbers.length) :: others, named := [] }

/-- What is known after a node, where `inner` is known at its end. It begins after the nodes that
are known before it, and before those inside it. -/
def Scope.leave (before inner : Scope) (node : Node) : Option String → Scope
  | none => inner
  | some _ =>
    { inner with named := inner.named ++ (before.numbers.length, node) :: before.named }

/-- A node, what is known after it, and the tokens after it. -/
structure Reading where
  node : Node
  scope : Scope
  rest : List Token

/-- Where a node may stand decides which collections it may be. -/
inductive Place where
  /-- Inside a flow collection: no blocks. -/
  | flow
  /-- In a block. -/
  | block
  /-- In a block mapping, where a sequence needs no indentation of its own. -/
  | blockMapping
  deriving DecidableEq, Repr

/-- Tokens after which a part of a block mapping is empty. -/
def endsEntry : List Token → Bool
  | .key :: _ | .value :: _ | .blockEnd :: _ | [] => true
  | _ => false

/-- Tokens after which the value of an entry in a flow collection is empty. -/
def endsFlowEntry : List Token → Bool
  | .flowEntry :: _ | .flowMappingEnd :: _ | .flowSequenceEnd :: _ | [] => true
  | _ => false

/-- Tokens after which its key is empty. -/
def endsFlowKey : List Token → Bool
  | .value :: _ => true
  | tokens => endsFlowEntry tokens

/-- The tokens after the empty key of an item of a flow sequence, which takes up the token that shows
it to be empty. -/
def afterEmptyKey? : List Token → Option (List Token)
  | .value :: rest | .flowEntry :: rest | .flowSequenceEnd :: rest => some rest
  | _ => none

/-- A comma stands before every part of a flow collection but the first. -/
def afterComma (first : Bool) (tokens : List Token) : Option (List Token) :=
  if first then some tokens
  else
    match tokens with
    | .flowEntry :: rest => some rest
    | _ => none

/-- What may stand before a scalar or a collection, and the tokens after it. -/
structure Properties where
  anchor : Option String := none
  tag : Option TagName := none
  rest : List Token

def Properties.isEmpty (found : Properties) : Bool := found.anchor.isNone && found.tag.isNone

/-- An anchor and a tag stand in either order. -/
def properties : List Token → Properties
  | .anchor name :: .tag tag :: rest | .tag tag :: .anchor name :: rest => ⟨name, tag, rest⟩
  | .anchor name :: rest => ⟨name, none, rest⟩
  | .tag tag :: rest => ⟨none, tag, rest⟩
  | rest => ⟨none, none, rest⟩

/-- The tag of a node, if there is one. Its handle must be known. -/
def Scope.tag? (scope : Scope) : Option TagName → Option (Option Tag)
  | none => some none
  | some name => (scope.handles.resolve? name).map some

/-- Whether a scalar or a collection begins here. -/
def startsContent (place : Place) : List Token → Bool
  | .scalar _ _ :: _ | .flowSequenceStart :: _ | .flowMappingStart :: _ => true
  | .blockSequenceStart :: _ | .blockMappingStart :: _ => place != .flow
  | .blockEntry :: _ => place == .blockMapping
  | _ => false

/-- A reading of the empty node, where a mapping or a sequence leaves out a part. -/
def nothing (scope : Scope) (tokens : List Token) : Reading := ⟨empty, scope, tokens⟩

mutual

/-- Reads a node. An anchor or a tag alone makes an empty one. Every function of this group passes
on one unit of fuel less. -/
def read : Nat → Place → Scope → List Token → Option Reading
  | 0, _, _, _ => none
  | fuel + 1, place, scope, tokens =>
    match tokens with
    | .reference name :: rest =>
      (scope.numbers.lookup name).map fun number => ⟨.reference number, scope, rest⟩
    | _ =>
      let found := properties tokens
      match scope.tag? found.tag with
      | none => none
      | some tag =>
        let inner := scope.enter found.anchor
        let content :=
          if startsContent place found.rest then readContent fuel place inner tag found.rest
          else if found.isEmpty then none
          else some ⟨.scalar "" .plain tag, inner, found.rest⟩
        content.map fun content =>
          { content with scope := scope.leave content.scope content.node found.anchor }

def readContent : Nat → Place → Scope → Option Tag → List Token → Option Reading
  | 0, _, _, _, _ => none
  | fuel + 1, place, scope, tag, tokens =>
    match tokens with
    | .scalar text style :: rest => some ⟨.scalar text style tag, scope, rest⟩
    | .flowSequenceStart :: rest => readFlowItems fuel true [] scope rest
    | .flowMappingStart :: rest => readFlowEntries fuel true [] scope rest
    | .blockSequenceStart :: rest =>
      if place = .flow then none else readBlockItems fuel [] scope rest
    | .blockMappingStart :: rest =>
      if place = .flow then none else readBlockEntries fuel [] scope rest
    | .blockEntry :: _ =>
      if place = .blockMapping then readLooseItems fuel [] scope tokens else none
    | _ => none

def readBlockItems : Nat → List Node → Scope → List Token → Option Reading
  | 0, _, _, _ => none
  | fuel + 1, done, scope, tokens =>
    match tokens with
    | .blockEnd :: rest => some ⟨.sequence done.reverse, scope, rest⟩
    | .blockEntry :: rest =>
      match rest with
      | .blockEntry :: _ | .blockEnd :: _ => readBlockItems fuel (empty :: done) scope rest
      | _ =>
        match read fuel .block scope rest with
        | none => none
        | some item => readBlockItems fuel (item.node :: done) item.scope item.rest
    | _ => none

/-- Reads the items of a sequence that is a value of a mapping and not indented further. -/
def readLooseItems : Nat → List Node → Scope → List Token → Option Reading
  | 0, _, _, _ => none
  | fuel + 1, done, scope, tokens =>
    match tokens with
    | .blockEntry :: rest =>
      if endsEntry rest || rest.head? == some .blockEntry then
        readLooseItems fuel (empty :: done) scope rest
      else
        match read fuel .block scope rest with
        | none => none
        | some item => readLooseItems fuel (item.node :: done) item.scope item.rest
    | _ => some ⟨.sequence done.reverse, scope, tokens⟩

def readBlockEntries : Nat → List (Node × Node) → Scope → List Token → Option Reading
  | 0, _, _, _ => none
  | fuel + 1, done, scope, tokens =>
    match tokens with
    | .blockEnd :: rest => some ⟨.mapping done.reverse, scope, rest⟩
    | .key :: rest =>
      let key := if endsEntry rest then some (nothing scope rest)
        else read fuel .blockMapping scope rest
      match key with
      | none => none
      | some key =>
        match readBlockValue fuel key.scope key.rest with
        | none => none
        | some value =>
          readBlockEntries fuel ((key.node, value.node) :: done) value.scope value.rest
    | _ => none

def readBlockValue : Nat → Scope → List Token → Option Reading
  | 0, _, _ => none
  | fuel + 1, scope, tokens =>
    match tokens with
    | .value :: rest =>
      if endsEntry rest then some (nothing scope rest) else read fuel .blockMapping scope rest
    | _ => some (nothing scope tokens)

def readFlowItems : Nat → Bool → List Node → Scope → List Token → Option Reading
  | 0, _, _, _, _ => none
  | fuel + 1, first, done, scope, tokens =>
    match tokens with
    | .flowSequenceEnd :: rest => some ⟨.sequence done.reverse, scope, rest⟩
    | _ =>
      match afterComma first tokens with
      | none => none
      | some (.flowSequenceEnd :: rest) => some ⟨.sequence done.reverse, scope, rest⟩
      | some (.key :: rest) =>
        match readFlowPair fuel scope rest with
        | none => none
        | some item => readFlowItems fuel false (item.node :: done) item.scope item.rest
      | some tokens =>
        match read fuel .flow scope tokens with
        | none => none
        | some item => readFlowItems fuel false (item.node :: done) item.scope item.rest

def readFlowPair : Nat → Scope → List Token → Option Reading
  | 0, _, _ => none
  | fuel + 1, scope, tokens =>
    let key :=
      match afterEmptyKey? tokens with
      | some rest => some (nothing scope rest)
      | none => read fuel .flow scope tokens
    match key with
    | none => none
    | some key =>
      (readFlowValue fuel key.scope key.rest).map fun value =>
        ⟨.mapping [(key.node, value.node)], value.scope, value.rest⟩

def readFlowValue : Nat → Scope → List Token → Option Reading
  | 0, _, _ => none
  | fuel + 1, scope, tokens =>
    match tokens with
    | .value :: rest =>
      if endsFlowEntry rest then some (nothing scope rest) else read fuel .flow scope rest
    | _ => some (nothing scope tokens)

def readFlowEntries : Nat → Bool → List (Node × Node) → Scope → List Token → Option Reading
  | 0, _, _, _, _ => none
  | fuel + 1, first, done, scope, tokens =>
    match tokens with
    | .flowMappingEnd :: rest => some ⟨.mapping done.reverse, scope, rest⟩
    | _ =>
      match afterComma first tokens with
      | none => none
      | some (.flowMappingEnd :: rest) => some ⟨.mapping done.reverse, scope, rest⟩
      | some (.key :: rest) =>
        let key := if endsFlowKey rest then some (nothing scope rest)
          else read fuel .flow scope rest
        match key with
        | none => none
        | some key =>
          match readFlowValue fuel key.scope key.rest with
          | none => none
          | some value =>
            readFlowEntries fuel false ((key.node, value.node) :: done) value.scope value.rest
      | some tokens =>
        match read fuel .flow scope tokens with
        | none => none
        | some key => readFlowEntries fuel false ((key.node, empty) :: done) key.scope key.rest

end

end Node

end SourcePrint.Yaml
