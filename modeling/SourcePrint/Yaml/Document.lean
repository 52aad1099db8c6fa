import SourcePrint.Yaml.Node

namespace SourcePrint.Yaml

/-- A document: its outermost node and its nodes by the numbers of their anchors, the one that
begins last first. -/
structure Document where
  root : Node
  named : List (Nat × Node)

namespace Document

/-- What a node stands for. Of the nodes with one number the last one of the document counts, even
for a reference before it. -/
def follow (document : Document) : Node → Node
  | .reference number => (document.named.lookup number).getD .empty
  | node => node

def splitDirectives : List Token → List Directive × List Token
  | .directive directive :: tokens =>
    let (directives, rest) := splitDirectives tokens
    (directive :: directives, rest)
  | tokens => ([], tokens)

/-- Tokens after which an explicit document is empty. -/
def endsContent : List Token → Bool
  | .directive _ :: _ | .documentStart :: _ | .documentEnd :: _ | [] => true
  | _ => false

/-- The single document of a token list. An explicit one may be empty and have directives. -/
def ofTokens? (tokens : List Token) : Option Document := do
  let (directives, tokens) := splitDirectives tokens
  let scope : Node.Scope := { handles := ← Handles.ofDirectives? directives }
  let fuel := 4 * tokens.length + 4
  let content ←
    match tokens with
    | .documentStart :: rest =>
      if endsContent rest then some (Node.nothing scope rest) else Node.read fuel .block scope rest
    | _ => if directives = [] then Node.read fuel .block scope tokens else none
  if content.rest.all (· == .documentEnd) then return ⟨content.node, content.scope.named⟩
  else none

def parse? (text : String) : Option Document := (tokens? text.toList).bind ofTokens?

end Document

end SourcePrint.Yaml
