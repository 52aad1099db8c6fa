import SourcePrint.Classifier
import SourcePrint.Lexer
import SourcePrint.Token.Basic

namespace SourcePrint

/-- A line and a column, both counted from one, columns in characters. -/
structure Position where
  line : Nat
  column : Nat
  deriving DecidableEq, Repr

namespace Position

def start : Position := ⟨1, 1⟩

/-- What follows the last newline of a text, if there is one. -/
def behindNewline? (cs : List Char) : Option (List Char) :=
  if cs.contains '\n' then some (cs.reverse.takeWhile (· != '\n')).reverse else none

/-- The position behind a text. Behind a newline, columns count from the last one. -/
def advance (position : Position) (cs : List Char) : Position :=
  match behindNewline? cs with
  | some line => ⟨position.line + cs.count '\n', 1 + line.length⟩
  | none => ⟨position.line, position.column + cs.length⟩

end Position

/-- The text under a span, with what is known of the span. -/
structure Piece where
  category : Category
  text : List Char
  start : Nat
  deriving DecidableEq, Repr

namespace Piece

/-- Cuts the pieces under `spans` out of a text of `length` bytes and puts them behind `done`, last
one first. `rest` is what follows byte `reached`, where the previous span starts; no later span
can start before it, so the text is walked once. -/
def cutFrom (length : Nat) (done : List Piece) (reached : Nat) (rest : List Char) :
    List Span → Except CanonicalError (List Piece)
  | [] => .ok done.reverse
  | span :: spans =>
    let invalid (fault : SpanFault) : Except CanonicalError (List Piece) :=
      .error (.invalidSpan span.start span.stop fault)
    if span.start < reached then invalid .backward
    else if span.stop < span.start then invalid .reversed
    else if length < span.stop then invalid .pastEnd
    else
      match Text.dropBytes? (span.start - reached) rest with
      | none => invalid .splitsCharacter
      | some here =>
        match Text.takeBytes? (span.stop - span.start) here with
        | none => invalid .splitsCharacter
        | some text =>
          cutFrom length (⟨span.category, text, span.start⟩ :: done) span.start here spans

def cut (text : List Char) (spans : List Span) : Except CanonicalError (List Piece) :=
  cutFrom (Text.byteLength text) [] 0 text spans

end Piece

/-- The token that was read last. It is held back, as a literal takes in the literals behind it. -/
inductive Pending where
  | empty
  | holding (token : Token)
  deriving DecidableEq, Repr

namespace Pending

/-- Takes in a piece of a kind. A token that does not join it goes out, to the front of `out`. -/
def accept (pending : Pending) (kind : Symbol) (piece : Piece) (position : Position)
    (sourceName : String) (out : List Token) : Pending × List Token :=
  let token : Token :=
    { kind, text := String.ofList piece.text, startOffset := piece.start, line := position.line,
      column := position.column, sourceName }
  match pending with
  | holding held =>
    if held.kind.isLiteral && kind.isLiteral then
      (holding { held with text := held.text ++ String.ofList piece.text }, out)
    else (holding token, held :: out)
  | empty => (holding token, out)

def flush (pending : Pending) (out : List Token) : List Token :=
  match pending with
  | holding held => held :: out
  | empty => out

end Pending

/-- What is known between two pieces. -/
structure Collector where
  /-- The tokens that went out, last one first. -/
  out : List Token
  pending : Pending
  position : Position
  deriving DecidableEq, Repr

namespace Collector

def start : Collector := ⟨[], .empty, .start⟩

/-- Every piece moves the position on, whether it leaves a token or not. -/
def step (classifier : Classifier) (sourceName : String) (collector : Collector) (piece : Piece) :
    Collector :=
  let position := collector.position.advance piece.text
  match classifier.classify piece.category piece.text with
  | some kind =>
    let (pending, out) :=
      collector.pending.accept kind piece collector.position sourceName collector.out
    ⟨out, pending, position⟩
  | none => { collector with position }

def finish (collector : Collector) : List Token :=
  (collector.pending.flush collector.out).reverse

end Collector

namespace Token

/-- The tokens of pieces in order. Trivia is left out and neighbouring literals are joined. -/
def collect (classifier : Classifier) (sourceName : String) (pieces : List Piece) : List Token :=
  (pieces.foldl (Collector.step classifier sourceName) .start).finish

def normalize (lexer : Lexer) (text sourceName : String) (classifier : Classifier) :
    Except CanonicalError (List Token) :=
  match lexer.scan text with
  | .error error => .error (.ofLexical error)
  | .ok spans => (Piece.cut text.toList spans).map (collect classifier sourceName)

end Token

end SourcePrint
